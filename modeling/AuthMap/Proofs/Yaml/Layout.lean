import AuthMap.Proofs.Yaml.Tokens

/-! The tokens of whole printed texts: lists of texts, and lists of records. -/

namespace AuthMap.Yaml

/-! ### Tokens of collections -/

def itemTokens (ts : List Text) : List Token := ts.flatMap fun t => [.blockEntry, scalarToken t]

def valueTokens : Field → List Token
  | .text t => [scalarToken t]
  | .texts [] => [.flowSequence, .flowSequenceEnd]
  | .texts ts => itemTokens ts

def fieldTokens (key : String) (f : Field) : List Token :=
  .key :: .scalar (Text.ofString key) true :: .value :: valueTokens f

def recordTokens (fs : List (String × Field)) : List Token :=
  .blockEntry :: .blockMapping :: (fs.flatMap (fun kf => fieldTokens kf.1 kf.2) ++ [.blockEnd])

def listTokens (rows : List (List Token)) : List Token :=
  .blockSequence :: (rows.flatten ++ [.blockEnd, .streamEnd])

structure IsName (key : String) : Prop where
  ne_nil : key.toList ≠ []
  lower : ∀ c ∈ key.toList, c.isLower
  short : key.toList.length ≤ 1024

def IsRecord (fs : List (String × Field)) : Prop := fs ≠ [] ∧ ∀ x ∈ fs, IsName x.1

theorem head_scalarText (indent column : Nat) (t : Text) (r : List Char) :
    ∀ ch ∈ (scalarText indent column t ++ r).head?, isGraphic ch ∧ ch ≠ ' ' ∧ ch ≠ '#' := by
  have hdouble : ∀ ch ∈ (doubleText indent column t ++ r).head?,
      isGraphic ch ∧ ch ≠ ' ' ∧ ch ≠ '#' := by
    simp only [doubleText, List.cons_append, List.head?_cons, Option.mem_def, Option.some.injEq]
    rintro ch rfl
    decide
  unfold scalarText
  cases ht : t.chars? with
  | none => exact hdouble
  | some cs =>
    cases hs : Style.of cs with
    | plain =>
      have hp := Style.isPhrase_of_isPlain (Style.isPlain_of_eq hs)
      simp only [hs]
      intro ch hch
      refine hp.head_visible ?_
      obtain ⟨x, xs, rfl⟩ := List.exists_cons_of_ne_nil hp.ne_nil
      rwa [List.head?_append, hp.head?_plainFrom] at hch
    | double =>
      simp only [hs]
      exact hdouble
    | single =>
      simp only [hs, List.cons_append, List.head?_cons, Option.mem_def, Option.some.injEq]
      rintro ch rfl
      decide

namespace Lexer

section

variable {r : List Char} {m k : Nat} {i i' : Int} {os os' os'' : List Int} {front out : List Token}

/-- The items of a list that is a field, from the dash of the first on. -/
theorem lexes_items (t : Text) (ts : List Text) (hm : m ≤ 2) (hr : isLineHead r)
    (hu : Unwinds (m : Int) 2 os k i' os') (h : Lexes r m i' os' true out) :
    Lexes ('-' :: ' ' :: (scalarText 4 4 t ++
        '\n' :: (fieldItems ts ++ (List.replicate m ' ' ++ r)))) 2 2 os true
      (itemTokens (t :: ts) ++ (List.replicate k .blockEnd ++ out)) := by
  -- the last item ends its line before what follows the list, the others before a dash
  induction ts generalizing t with
  | nil =>
    have hline : Lexes (scalarText 4 4 t ++ '\n' :: (List.replicate m ' ' ++ r)) 4 2 os true
        (scalarToken t :: (List.replicate k .blockEnd ++ out)) :=
      lexes_scalar t (by decide) (by decide) (by decide) (by decide) (by omega) hr hu h
    exact lexes_dash (head_scalarText _ _ _ _) .same hline
  | cons t' ts ih =>
    have hline : Lexes (scalarText 4 4 t ++ '\n' :: (List.replicate 2 ' ' ++ _)) 4 2 os true _ :=
      lexes_scalar t (by decide) (by decide) (by decide) (by decide) (by decide) rfl
        (.stay _ _ (by decide)) (ih t')
    have hdash := lexes_dash (head_scalarText _ _ _ _) .same hline
    simpa [fieldItems, itemTokens, List.replicate] using hdash

theorem lexes_field {key : String} (hk : IsName key) (f : Field)
    (ho : Opens .blockMapping 2 i os front os') (hm : m ≤ 2) (hr : isLineHead r)
    (hu : Unwinds (m : Int) 2 os' k i' os'') (h : Lexes r m i' os'' true out) :
    Lexes (fieldText key f ++ (List.replicate m ' ' ++ r)) 2 i os true
      (front ++ (fieldTokens key f ++ (List.replicate k .blockEnd ++ out))) := by
  cases f with
  | text t =>
    have hline : Lexes (scalarText 4 (key.length + 4) t ++ '\n' :: (List.replicate m ' ' ++ r))
        (2 + key.toList.length + 2) 2 os' false
        (scalarToken t :: (List.replicate k .blockEnd ++ out)) := by
      have hcol : key.length + 4 = 2 + key.toList.length + 2 := by
        rw [String.length_toList]
        omega
      rw [hcol]
      exact lexes_scalar t (by decide) (by decide) (by decide) (by omega) (by omega) hr hu h
    have hkey := lexes_key_blank hk.lower hk.ne_nil hk.short (by decide) ho
      (head_scalarText _ _ _ _) hline
    simpa [fieldText, fieldTokens, valueTokens, Text.ofString] using hkey
  | texts ts =>
    cases ts with
    | nil =>
      have hempty : Lexes _ (2 + key.toList.length + 2) _ _ _ _ := lexes_empty hr hu h
      have hkey := lexes_key_blank hk.lower hk.ne_nil hk.short (by decide) ho (by simp; decide)
        hempty
      simpa [fieldText, fieldTokens, valueTokens, Text.ofString] using hkey
    | cons t ts =>
      have hkey := lexes_key_line (m := 2) hk.lower hk.ne_nil hk.short (by decide) ho
        (by simp; decide) (by decide) (lexes_items t ts hm hr hu h)
      simpa [fieldText, fieldTokens, valueTokens, Text.ofString, fieldItems, List.replicate]
        using hkey

end

/-! ### Rows -/

/-- Rows that begin with a dash give their tokens one after another. -/
theorem lexes_rows {α : Type} {P : α → Prop} {text : α → List Char} {tokens : α → List Token}
    (hline : ∀ x r, P x → isLineHead (text x ++ r))
    (hrow : ∀ x r i os front os' out, P x → isLineHead r →
      Opens .blockSequence 0 i os front os' → Lexes r 0 0 os' true out →
        Lexes (text x ++ r) 0 i os true (front ++ (tokens x ++ out)))
    {xs : List α} (hne : xs ≠ []) (hxs : ∀ x ∈ xs, P x) :
    Lexes (xs.flatMap text) 0 (-1) [] true (listTokens (xs.map tokens)) := by
  have hhead : ∀ ys : List α, (∀ y ∈ ys, P y) → isLineHead (ys.flatMap text) := by
    intro ys hys
    cases ys with
    | nil => rfl
    | cons y ys => exact hline y _ (hys y List.mem_cons_self)
  have hrows : ∀ ys : List α, (∀ y ∈ ys, P y) → Lexes (ys.flatMap text) 0 0 [-1] true
      ((ys.map tokens).flatten ++ [.blockEnd, .streamEnd]) := by
    intro ys hys
    induction ys with
    | nil =>
      have hu : Unwinds (-1) 0 [-1] 1 (-1) [] := .pop (by decide) (.stay _ _ (by decide))
      exact lexes_end hu
    | cons y ys ih =>
      have htail : ∀ z ∈ ys, P z := fun z hz => hys z (List.mem_cons_of_mem _ hz)
      have h := hrow y _ 0 [-1] [] [-1] _ (hys y List.mem_cons_self) (hhead ys htail) .same
        (ih htail)
      simpa using h
  -- the first row begins the list, in which the others stand
  obtain ⟨x, xs, rfl⟩ := List.exists_cons_of_ne_nil hne
  have htail : ∀ z ∈ xs, P z := fun z hz => hxs z (List.mem_cons_of_mem _ hz)
  have h := hrow x _ (-1) [] _ _ _ (hxs x List.mem_cons_self) (hhead xs htail)
    (.fresh (by decide)) (hrows xs htail)
  simpa [listTokens] using h

theorem lexes_texts {ts : List Text} (hne : ts ≠ []) :
    Lexes (ts.flatMap fun t => "- ".toList ++ scalarText 2 2 t ++ ['\n']) 0 (-1) [] true
      (listTokens (ts.map fun t => [.blockEntry, scalarToken t])) := by
  refine lexes_rows (P := fun _ => True) (fun t r _ => rfl)
    (fun t r i os front os' out _ hr ho h => ?_) hne fun _ _ => trivial
  have hline : Lexes (scalarText 2 2 t ++ '\n' :: (List.replicate 0 ' ' ++ r)) 2 0 os' true _ :=
    lexes_scalar t (by decide) (by decide) (by decide) (by decide) (by decide) hr
      (.stay _ _ (by decide)) h
  simpa using lexes_dash (head_scalarText _ _ _ _) ho hline

theorem head_fieldText {key : String} (hk : IsName key) (f : Field) (r : List Char) :
    isLineHead (fieldText key f ++ r) := by
  obtain ⟨c, cs, hc⟩ := List.exists_cons_of_ne_nil hk.ne_nil
  have hlower : c.isLower := hk.lower c (by simp [hc])
  have hhead : ∃ cs', fieldText key f ++ r = c :: cs' := by
    unfold fieldText
    split <;> rw [hc] <;> exact ⟨_, rfl⟩
  obtain ⟨cs', h⟩ := hhead
  rw [h]
  unfold isLineHead
  split
  · rfl
  · rfl
  · next he => exact (List.cons.inj he).1 ▸ hlower

theorem lexes_fields {r : List Char} {os : List Int} {out : List Token} (hr : isLineHead r)
    (hout : Lexes r 0 0 os true out) (kf : String × Field) (kfs : List (String × Field))
    (hk : ∀ x ∈ kf :: kfs, IsName x.1) {i : Int} {os' : List Int} {front : List Token}
    (ho : Opens .blockMapping 2 i os' front (0 :: os)) :
    Lexes (fieldText kf.1 kf.2 ++
        (kfs.flatMap (fun x => "  ".toList ++ fieldText x.1 x.2) ++ r)) 2 i os' true
      (front ++ ((kf :: kfs).flatMap (fun x => fieldTokens x.1 x.2) ++ .blockEnd :: out)) := by
  -- the mapping ends behind the last field, as the next line does not reach so far
  induction kfs generalizing kf i os' front with
  | nil =>
    have h := lexes_field (m := 0) (hk kf List.mem_cons_self) kf.2 ho (by decide) hr
      (.pop (by decide) (.stay _ _ (by decide))) hout
    simpa using h
  | cons kf' kfs ih =>
    have htail : ∀ x ∈ kf' :: kfs, IsName x.1 := fun x hx => hk x (List.mem_cons_of_mem _ hx)
    have h := lexes_field (m := 2) (hk kf List.mem_cons_self) kf.2 ho (by decide)
      (head_fieldText (htail kf' List.mem_cons_self) _ _) (.stay _ _ (by decide))
      (ih kf' htail .same)
    simpa [List.replicate] using h

theorem lexes_records {rs : List (List (String × Field))} (hne : rs ≠ [])
    (hrs : ∀ fs ∈ rs, IsRecord fs) :
    Lexes (rs.flatMap recordText) 0 (-1) [] true (listTokens (rs.map recordTokens)) := by
  refine lexes_rows (fun fs r hfs => ?_) (fun fs r i os front os' out hfs hr ho h => ?_) hne hrs
  · obtain ⟨kf, kfs, rfl⟩ := List.exists_cons_of_ne_nil hfs.1
    rfl
  · obtain ⟨kf, kfs, rfl⟩ := List.exists_cons_of_ne_nil hfs.1
    have hfields := lexes_fields hr h kf kfs hfs.2 (.fresh (by decide))
    have hdash := lexes_dash
      (fun ch hch => head_of_isLineHead (head_fieldText (hfs.2 kf List.mem_cons_self) _ _) hch)
      ho hfields
    simpa [recordText, recordTokens] using hdash

end Lexer

end AuthMap.Yaml
