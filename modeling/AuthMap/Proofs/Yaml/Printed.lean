import AuthMap.Proofs.Yaml.Layout

/-! The characters of printed texts, all of which a text may hold, and the tokens of whole printed
texts. -/

namespace AuthMap.Yaml

open Text (CodePoint)

theorem all_isPrinted_of_isGraphic {cs : List Char} (h : ∀ c ∈ cs, isGraphic c) :
    cs.all isPrinted :=
  List.all_eq_true.mpr fun c hc => by simp [isPrinted, h c hc]

theorem all_isPrinted_newLine (indent : Nat) : (newLine indent).all isPrinted := by
  rw [newLine, List.all_cons]
  exact Bool.and_eq_true_iff.mpr
    ⟨rfl, all_isPrinted_of_isGraphic fun c hc => Cursor.isGraphic_of_mem_spaces hc⟩

theorem all_isPrinted_plainFrom {cs : List Char} (h : ∀ c ∈ cs, isGraphic c) (indent : Nat)
    (spaced : Bool) (column : Nat) : (plainFrom indent spaced column cs).all isPrinted := by
  induction cs generalizing spaced column with
  | nil => rfl
  | cons c cs ih =>
    have hc : isPrinted c := by simp [isPrinted, h c List.mem_cons_self]
    have ih' := ih fun x hx => h x (List.mem_cons_of_mem _ hx)
    unfold plainFrom
    split_ifs <;> simp only [List.all_append, List.all_cons, all_isPrinted_newLine, ih', hc,
      Bool.and_self]

theorem all_isPrinted_singleFrom {cs : List Char} (h : ∀ c ∈ cs, isPrinted c) (indent : Nat)
    (after : Option Char) (column : Nat) :
    (singleFrom indent after column cs).all isPrinted := by
  induction cs generalizing after column with
  | nil => rfl
  | cons c cs ih =>
    have hc : isPrinted c := h c List.mem_cons_self
    have ih' := ih fun x hx => h x (List.mem_cons_of_mem _ hx)
    have hn : isPrinted '\n' := rfl
    have hq : isPrinted '\'' := rfl
    unfold singleFrom
    split_ifs <;> simp only [List.all_append, List.all_cons, List.all_nil, all_isPrinted_newLine,
      ih', hc, hn, hq, Bool.and_self]

theorem all_isPrinted_numberEscape (n : Nat) : (numberEscape n).all isPrinted := by
  have hall (width : Nat) : (upperHex width n).all isPrinted :=
    all_isPrinted_of_isGraphic fun c hc => (isHexDigit_of_mem_upperHex hc).2
  unfold numberEscape
  split_ifs <;> simp only [List.all_cons, hall, Bool.and_true] <;> rfl

theorem all_isPrinted_of_inDoubleQuotes {p : CodePoint} {e : List Char}
    (h : inDoubleQuotes p = .inr e) : e.all isPrinted := by
  cases p with
  | half i =>
    obtain rfl := Sum.inr.inj h
    exact all_isPrinted_numberEscape _
  | char c =>
    simp only [inDoubleQuotes] at h
    split at h
    · next l hl =>
      obtain rfl := Sum.inr.inj h
      simp [isPrinted, (letterEscape?_of_escapeLetter? hl).2]
      decide
    · split at h
      · cases h
      · obtain rfl := Sum.inr.inj h
        exact all_isPrinted_numberEscape _

theorem all_isPrinted_escapedBreak (indent : Nat) (next : Option CodePoint) :
    (escapedBreak indent next).all isPrinted := by
  have hb : isPrinted '\\' := rfl
  unfold escapedBreak
  split_ifs <;> simp only [List.all_append, List.all_cons, List.all_nil, all_isPrinted_newLine, hb,
    Bool.and_self]

theorem all_isPrinted_doubleFrom (indent : Nat) (first fresh : Bool) (column : Nat) (t : Text) :
    (doubleFrom indent first fresh column t).all isPrinted := by
  induction t generalizing first fresh column with
  | nil => rfl
  | cons p t ih =>
    cases hp : inDoubleQuotes p with
    | inr e =>
      have he := all_isPrinted_of_inDoubleQuotes hp
      rcases doubleFrom_escape hp indent first fresh column t with h | h <;>
        simp only [h, List.all_append, he, all_isPrinted_escapedBreak, ih, Bool.and_self]
    | inl c =>
      have hc : isPrinted c := by simp [isPrinted, (of_inDoubleQuotes hp).2.1]
      rcases doubleFrom_shown hp indent first fresh column t with ⟨column', h | h⟩ <;>
        simp only [h, List.all_append, List.all_cons, hc, all_isPrinted_escapedBreak, ih,
          Bool.and_self]

theorem all_isPrinted_scalarText (indent column : Nat) (t : Text) :
    (scalarText indent column t).all isPrinted := by
  have hquote : isPrinted '"' := rfl
  have hquote' : isPrinted '\'' := rfl
  have hdouble : (doubleText indent column t).all isPrinted := by
    simp only [doubleText, List.all_append, List.all_cons, List.all_nil, all_isPrinted_doubleFrom,
      hquote, Bool.and_self]
  unfold scalarText
  split
  · exact hdouble
  · split
    · next hs =>
      exact all_isPrinted_plainFrom (Style.isGraphic_of_isPlain (Style.isPlain_of_eq hs)) _ _ _
    · next hs =>
      simp only [List.all_append, List.all_cons, List.all_nil, hquote', Bool.and_self,
        all_isPrinted_singleFrom (Style.of_eq_single hs).1]
    · exact hdouble

theorem all_isPrinted_fieldText {key : String} (hk : IsName key) (f : Field) :
    (fieldText key f).all isPrinted := by
  have hkey : key.toList.all isPrinted :=
    all_isPrinted_of_isGraphic fun c hc => isGraphic_of_isLower (hk.lower c hc)
  have hitems (ts : List Text) : (fieldItems ts).all isPrinted := by
    simp only [fieldItems, List.all_flatMap, List.all_append, all_isPrinted_scalarText]
    exact List.all_eq_true.mpr fun _ _ => by decide
  unfold fieldText
  split <;> simp only [List.all_append, hkey, all_isPrinted_scalarText, hitems, Bool.and_true] <;>
    decide

theorem all_isPrinted_recordText {fs : List (String × Field)} (h : IsRecord fs) :
    (recordText fs).all isPrinted := by
  obtain ⟨kf, kfs, rfl⟩ := List.exists_cons_of_ne_nil h.1
  have htail : (kfs.flatMap fun x => "  ".toList ++ fieldText x.1 x.2).all isPrinted := by
    rw [List.all_flatMap]
    refine List.all_eq_true.mpr fun x hx => ?_
    simp only [List.all_append, all_isPrinted_fieldText (h.2 x (List.mem_cons_of_mem _ hx))]
    decide
  simp only [recordText, List.all_append, htail,
    all_isPrinted_fieldText (h.2 kf List.mem_cons_self)]
  decide

theorem all_isPrinted_printRecords {rs : List (List (String × Field))}
    (h : ∀ fs ∈ rs, IsRecord fs) : (printRecords rs).toList.all isPrinted := by
  cases rs with
  | nil => decide
  | cons fs rs =>
    rw [printRecords, List.isEmpty_cons, if_neg (by decide), String.toList_ofList,
      List.all_flatMap]
    exact List.all_eq_true.mpr fun fs hfs => all_isPrinted_recordText (h fs hfs)

/-! ### Whole texts -/

/-- The lexer starts on a printed text as in the midst of one. -/
theorem tokens_of_lexes {cs : List Char} {out : List Token} (ha : cs.all isPrinted)
    (hl : isLineHead cs) (h : Lexer.Lexes cs 0 (-1) [] true out) : tokens cs = out := by
  have hallowed : cs.all isAllowed := List.all_eq_true.mpr fun c hc =>
    isAllowed_of_isPrinted (List.all_eq_true.mp ha c hc)
  have hready := Lexer.ready_blank (m := 0) (c := Cursor.ofChars cs) true [] 0 rfl
    (fun ch hch => head_of_isLineHead hl hch) (show ∀ x ∈ none, _ by simp)
    (.stay (-1) [] (by omega))
  have hrun := h (Lexer.ofChars cs) ⟨cs, 0, 0, 0⟩ [] 0 rfl rfl hready (Nat.le_refl _)
    (cs.length + 2) (Nat.lt_add_of_pos_right (by decide))
  rw [tokens, if_pos hallowed, hrun, List.append_nil, List.reverse_reverse]

def emptyTokens : List Token := [.flowSequence, .flowSequenceEnd, .streamEnd]

theorem tokens_empty : tokens "[]\n".toList = emptyTokens := by decide +kernel

theorem tokens_printTexts {ts : List Text} (hne : ts ≠ []) :
    tokens (printTexts ts).toList = listTokens (ts.map fun t => [.blockEntry, scalarToken t]) := by
  have hempty : ts.isEmpty = false := by simpa using hne
  rw [printTexts, hempty, if_neg (by decide), String.toList_ofList]
  refine tokens_of_lexes ?_ ?_ (Lexer.lexes_texts hne)
  · simp only [List.all_flatMap, List.all_append, all_isPrinted_scalarText]
    exact List.all_eq_true.mpr fun _ _ => by decide
  · obtain ⟨t, ts, rfl⟩ := List.exists_cons_of_ne_nil hne
    rfl

theorem tokens_printRecords {rs : List (List (String × Field))} (hne : rs ≠ [])
    (hrs : ∀ fs ∈ rs, IsRecord fs) :
    tokens (printRecords rs).toList = listTokens (rs.map recordTokens) := by
  have hempty : rs.isEmpty = false := by simpa using hne
  have hprinted := all_isPrinted_printRecords hrs
  rw [printRecords, hempty, if_neg (by decide), String.toList_ofList] at hprinted ⊢
  refine tokens_of_lexes hprinted ?_ (Lexer.lexes_records hne hrs)
  · obtain ⟨fs, rs, rfl⟩ := List.exists_cons_of_ne_nil hne
    obtain ⟨kf, kfs, rfl⟩ := List.exists_cons_of_ne_nil (hrs _ List.mem_cons_self).1
    rfl

end AuthMap.Yaml
