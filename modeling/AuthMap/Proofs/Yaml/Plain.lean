import Mathlib.Data.List.TakeWhile
import AuthMap.Yaml.Printer
import AuthMap.Yaml.Token.Plain
import AuthMap.Proofs.Yaml.Cursor

/-! Plain scalars: a text that is written without quotes, over as many lines as it takes, reads
back as it was. -/

namespace AuthMap.Yaml

/-- What may follow a printed line, after the indentation of the next one: the end of the text, a
dash, or the name of a field. -/
def isLineHead : List Char → Bool
  | [] => true
  | '-' :: ' ' :: _ => true
  | c :: _ => c.isLower

theorem isGraphic_of_isLower {c : Char} (h : c.isLower) : isGraphic c := by
  have hrange : (decide ('a'.val ≤ c.val) && decide (c.val ≤ 'z'.val)) = true := h
  simp only [Bool.and_eq_true, decide_eq_true_eq, UInt32.le_iff_toNat_le] at hrange
  have h₁ : 97 ≤ c.toNat := hrange.1
  have h₂ : c.toNat ≤ 122 := hrange.2
  simp only [isGraphic, Bool.and_eq_true, decide_eq_true_eq]
  omega

theorem head_of_isLineHead {cs : List Char} {c : Char} (h : isLineHead cs) (hc : c ∈ cs.head?) :
    isGraphic c ∧ c ≠ ' ' ∧ c ≠ '#' := by
  unfold isLineHead at h
  split at h
  · simp at hc
  · obtain rfl : '-' = c := by simpa using hc
    decide
  · obtain rfl : _ = c := by simpa using hc
    refine ⟨isGraphic_of_isLower h, ?_, ?_⟩ <;> rintro rfl <;> exact absurd h (by decide)

theorem not_atSeparator {c : Cursor} {n : Nat} {cs : List Char} (h : isLineHead cs)
    (hc : c.rest = List.replicate n ' ' ++ cs) : c.atSeparator = false := by
  cases n with
  | succ n =>
    rw [List.replicate_succ, List.cons_append] at hc
    exact Cursor.atSeparator_eq_false (by simp [hc]) (by simp [hc])
  | zero =>
    have hc : c.rest = cs := by simpa using hc
    unfold Cursor.atSeparator
    split
    · next hd => rw [hc] at hd; subst hd; exact absurd h (by simp [isLineHead])
    · next hd => rw [hc] at hd; subst hd; exact absurd h (by simp [isLineHead])
    · rfl

/-! ### Words -/

/-- A run of a plain scalar: it neither begins like a comment nor ends like a key. -/
structure IsWord (w : List Char) : Prop where
  ne_nil : w ≠ []
  visible : ∀ c ∈ w, isGraphic c ∧ c ≠ ' '
  head : w.head? ≠ some '#'
  last : w.getLast? ≠ some ':'

inductive IsPhrase : List Char → Prop
  | word {w : List Char} : IsWord w → IsPhrase w
  | cons {w : List Char} {n : Nat} {cs : List Char} : IsWord w → IsPhrase cs →
      IsPhrase (w ++ (List.replicate (n + 1) ' ' ++ cs))

theorem IsWord.head_visible {w : List Char} (h : IsWord w) (r : List Char) {c : Char}
    (hc : c ∈ (w ++ r).head?) : isGraphic c ∧ c ≠ ' ' ∧ c ≠ '#' := by
  obtain ⟨x, w, rfl⟩ := List.exists_cons_of_ne_nil h.ne_nil
  obtain rfl : x = c := by simpa using hc
  have hx := h.visible x List.mem_cons_self
  exact ⟨hx.1, hx.2, by simpa using h.head⟩

theorem IsPhrase.head_visible {cs : List Char} (h : IsPhrase cs) {c : Char} (hc : c ∈ cs.head?) :
    isGraphic c ∧ c ≠ ' ' ∧ c ≠ '#' := by
  cases h with
  | word hw => exact hw.head_visible [] (by simpa using hc)
  | cons hw _ => exact hw.head_visible _ hc

theorem IsPhrase.ne_nil {cs : List Char} (h : IsPhrase cs) : cs ≠ [] := by
  cases h with
  | word hw => exact hw.ne_nil
  | cons hw _ => simp

namespace Style

theorem hasMark_append_right (as : List Char) {bs : List Char} (h : hasMark (as ++ bs) = false) :
    hasMark bs = false := by
  induction as with
  | nil => exact h
  | cons a as ih =>
    rw [List.cons_append, hasMark, Bool.or_eq_false_iff] at h
    exact ih h.2

theorem getLast?_ne_colon {w r : List Char} (h : hasMark (w ++ r) = false)
    (hr : separates r.head?) : w.getLast? ≠ some ':' := by
  intro hw
  obtain ⟨v, rfl⟩ := List.getLast?_eq_some_iff.mp hw
  rw [List.append_assoc] at h
  have hm := hasMark_append_right v h
  simp [hasMark, hr] at hm

theorem head?_ne_hash {w r : List Char} {n : Nat}
    (h : hasMark (w ++ (List.replicate (n + 1) ' ' ++ r)) = false) : r.head? ≠ some '#' := by
  intro hr
  rw [List.replicate_succ', List.append_assoc, ← List.append_assoc] at h
  have hm := hasMark_append_right _ h
  simp [hasMark, hr, isSeparating] at hm

end Style

/-- A text that does not begin with a space begins with a run, which spaces end unless it is all
there is. -/
theorem exists_run {cs : List Char} (hne : cs ≠ []) (hfst : cs.head? ≠ some ' ') :
    ∃ w n t, cs = w ++ (List.replicate n ' ' ++ t) ∧ w ≠ [] ∧ (∀ c ∈ w, c ≠ ' ') ∧
      t.head? ≠ some ' ' ∧ (n = 0 → t = []) := by
  -- the run goes up to the first space
  have hsplit : cs = cs.takeWhile (· ≠ ' ') ++ cs.dropWhile (· ≠ ' ') :=
    List.takeWhile_append_dropWhile.symm
  obtain ⟨n, t, hr, ht⟩ := exists_front ' ' (cs.dropWhile (· ≠ ' '))
  refine ⟨cs.takeWhile (· ≠ ' '), n, t, hr ▸ hsplit, ?_, ?_, ht, ?_⟩
  · obtain ⟨c, cs', rfl⟩ := List.exists_cons_of_ne_nil hne
    have hc : c ≠ ' ' := by simpa using hfst
    simp [hc]
  · intro c hc
    simpa using List.mem_takeWhile_imp hc
  · rintro rfl
    by_contra htne
    obtain ⟨c, t', rfl⟩ := List.exists_cons_of_ne_nil htne
    have hd := List.head?_dropWhile_not (fun x => decide (x ≠ ' ')) cs
    rw [hr] at hd
    have hspace : c = ' ' := by simpa using hd
    exact ht (by rw [hspace]; rfl)

/-- A text that is written without quotes is a phrase. -/
theorem isPhrase_of_hasMark {cs : List Char} (hne : cs ≠ []) (hg : ∀ c ∈ cs, isGraphic c)
    (hm : Style.hasMark cs = false) (hash : cs.head? ≠ some '#') (hfst : cs.head? ≠ some ' ')
    (hlst : cs.getLast? ≠ some ' ') : IsPhrase cs := by
  -- what follows the first run is shorter, and is again such a text
  induction hn : cs.length using Nat.strongRecOn generalizing cs with
  | ind k ih =>
    obtain ⟨w, n, t, rfl, hw, hspace, ht, hzero⟩ := exists_run hne hfst
    have hv : ∀ c ∈ w, isGraphic c ∧ c ≠ ' ' := fun c hc =>
      ⟨hg c (List.mem_append_left _ hc), hspace c hc⟩
    have hhead : w.head? ≠ some '#' := by
      obtain ⟨c, w', rfl⟩ := List.exists_cons_of_ne_nil hw
      simpa using hash
    cases n with
    | zero =>
      obtain rfl := hzero rfl
      rw [List.replicate_zero, List.nil_append, List.append_nil] at *
      rw [← List.append_nil w] at hm
      exact .word ⟨hw, hv, hhead, Style.getLast?_ne_colon hm rfl⟩
    | succ n =>
      have hlast : w.getLast? ≠ some ':' :=
        Style.getLast?_ne_colon hm (by simp [List.replicate_succ]; rfl)
      have htne : t ≠ [] := by
        rintro rfl
        apply hlst
        rw [List.replicate_succ']
        simp
      have hlen : t.length < k := by
        rw [← hn, List.length_append, List.length_append, List.length_replicate]
        omega
      have hmt : Style.hasMark t = false := by
        rw [← List.append_assoc] at hm
        exact Style.hasMark_append_right _ hm
      have hlt : t.getLast? ≠ some ' ' := by
        rwa [← List.append_assoc, List.getLast?_append_of_ne_nil _ htne] at hlst
      have hgt : ∀ c ∈ t, isGraphic c := fun c hc => hg c (by simp [hc])
      have htail : IsPhrase t := ih t.length hlen htne hgt hmt (Style.head?_ne_hash hm) ht hlt rfl
      exact .cons ⟨hw, hv, hhead, hlast⟩ htail

/-! ### Writing -/

theorem plainFrom_word {w : List Char} (hw : ∀ c ∈ w, c ≠ ' ') (hne : w ≠ []) (indent : Nat)
    (spaced : Bool) (column : Nat) (r : List Char) :
    plainFrom indent spaced column (w ++ r) =
      w ++ plainFrom indent false (column + w.length) r := by
  induction w generalizing spaced column with
  | nil => exact absurd rfl hne
  | cons c w ih =>
    have hc : c ≠ ' ' := hw c List.mem_cons_self
    rw [List.cons_append, plainFrom, if_neg hc]
    cases w with
    | nil => rfl
    | cons d w =>
      rw [ih (fun x hx => hw x (List.mem_cons_of_mem _ hx)) (by simp), List.length_cons (a := c),
        Nat.add_right_comm, Nat.add_assoc]
      rfl

theorem plainFrom_spaces (indent n column : Nat) (r : List Char) :
    plainFrom indent true column (List.replicate n ' ' ++ r) =
      List.replicate n ' ' ++ plainFrom indent true (column + n) r := by
  induction n generalizing column with
  | zero => rfl
  | succ n ih =>
    rw [List.replicate_succ, List.cons_append, plainFrom, if_pos rfl]
    simp only [Bool.not_true, Bool.false_and, Bool.false_eq_true, if_false, List.cons_append, ih,
      Nat.add_right_comm _ 1, Nat.add_assoc]

/-- Spaces stand as they are, but a single one may become a new line. -/
theorem plainFrom_gap (indent n column : Nat) (r : List Char) :
    ∃ column', plainFrom indent false column (List.replicate (n + 1) ' ' ++ r) =
        List.replicate (n + 1) ' ' ++ plainFrom indent true column' r ∨
      n = 0 ∧ plainFrom indent false column (List.replicate (n + 1) ' ' ++ r) =
        newLine indent ++ plainFrom indent true column' r := by
  rw [List.replicate_succ, List.cons_append, plainFrom, if_pos rfl]
  split
  · next h =>
    refine ⟨indent, Or.inr ?_⟩
    cases n with
    | zero => exact ⟨rfl, rfl⟩
    | succ n => simp [List.replicate_succ] at h
  · refine ⟨column + 1 + n, Or.inl ?_⟩
    rw [plainFrom_spaces]
    rfl

/-! ### Reading -/

theorem plainRun_word {w r : List Char} (hv : ∀ c ∈ w, isGraphic c ∧ c ≠ ' ')
    (hl : w.getLast? ≠ some ':') (hr : endsWord r.head?) : plainRun false (w ++ r) = w := by
  induction w with
  | nil =>
    cases r with
    | nil => rfl
    | cons c r => simp [plainRun, pausesPlain, show endsWord (some c) from hr]
  | cons c w ih =>
    have hc := hv c List.mem_cons_self
    have hp : pausesPlain false c (w ++ r).head? = false := by
      simp only [pausesPlain, endsWord_eq_false hc.1 hc.2, Bool.false_or, Bool.false_and,
        Bool.or_false, Bool.and_eq_false_iff, decide_eq_false_iff_not]
      cases w with
      | nil => exact Or.inl (by simpa using hl)
      | cons d w =>
        have hd := hv d (by simp)
        exact Or.inr (endsWord_eq_false hd.1 hd.2)
    rw [List.cons_append, plainRun, hp, if_neg (by decide),
      ih (fun x hx => hv x (List.mem_cons_of_mem _ hx))]
    cases w with
    | nil => simp
    | cons d w => simpa using hl

theorem plainGap_spaces {c : Cursor} {n : Nat} {r : List Char}
    (h : c.rest = List.replicate n ' ' ++ r) (hr : ∀ ch ∈ r.head?, isGraphic ch ∧ ch ≠ ' ') :
    plainGap c =
      (List.replicate n ' ', ⟨r, c.index + n, c.line, c.column + n⟩, false) := by
  have hr' : ∀ ch ∈ r.head?, decide (ch = ' ') = false := by simpa using fun ch hch => (hr ch hch).2
  have hb : (⟨r, c.index + n, c.line, c.column + n⟩ : Cursor).break? = none :=
    Cursor.break?_eq_none fun ch hch => isBreak_eq_false (hr ch hch).1
  simp only [plainGap, Cursor.skipSpaces, Cursor.skip_spaces h (by decide) hr', hb,
    Cursor.run_append h (by simp) hr']

theorem plainBreaks_spaces {c : Cursor} {n fuel : Nat} {r : List Char}
    (h : c.rest = List.replicate n ' ' ++ r) (hr : ∀ ch ∈ r.head?, isGraphic ch ∧ ch ≠ ' ')
    (hf : n < fuel) :
    plainBreaks fuel c = (some [], ⟨r, c.index + n, c.line, c.column + n⟩) := by
  induction n generalizing c fuel with
  | zero =>
    obtain ⟨fuel, rfl⟩ := Nat.exists_eq_succ_of_ne_zero (Nat.ne_zero_of_lt hf)
    have h : c.rest = r := by simpa using h
    have hp : c.peek ≠ some ' ' := fun hp => (hr ' ' (by rw [← h]; exact hp)).2 rfl
    have hb : c.break? = none :=
      Cursor.break?_eq_none fun ch hch => isBreak_eq_false (hr ch (h ▸ hch)).1
    rw [plainBreaks, if_neg hp, hb, ← h]
    rfl
  | succ n ih =>
    obtain ⟨fuel, rfl⟩ := Nat.exists_eq_succ_of_ne_zero (Nat.ne_zero_of_lt hf)
    rw [List.replicate_succ, List.cons_append] at h
    have hs := Cursor.step_graphic h (by decide)
    rw [plainBreaks, if_pos (by simp [Cursor.peek, h]), hs, ih rfl (by omega)]
    simp only [Nat.add_assoc, Nat.add_comm 1]

theorem plainGap_line {c : Cursor} {n : Nat} {r : List Char}
    (h : c.rest = '\n' :: (List.replicate n ' ' ++ r))
    (hr : ∀ ch ∈ r.head?, isGraphic ch ∧ ch ≠ ' ')
    (hs : ∀ c' : Cursor, c'.rest = List.replicate n ' ' ++ r → c'.atSeparator = false) :
    plainGap c = ([' '], ⟨r, c.index + 1 + n, c.line + 1, n⟩, true) := by
  have hskip : c.skipSpaces = c := Cursor.skip_eq_self (by simp [h])
  have hbreaks : plainBreaks ((List.replicate n ' ' ++ r).length + 1)
      ⟨List.replicate n ' ' ++ r, c.index + 1, c.line + 1, 0⟩ =
        (some [], ⟨r, c.index + 1 + n, c.line + 1, 0 + n⟩) :=
    plainBreaks_spaces rfl hr (by rw [List.length_append, List.length_replicate]; omega)
  simp only [plainGap, hskip, Cursor.break?_newline h, hs ⟨_, _, _, _⟩ rfl, hbreaks,
    Bool.false_eq_true, if_false, foldBreak, ne_eq, not_true_eq_false, List.isEmpty_nil,
    if_true, Nat.zero_add]

theorem plainText_word {w r : List Char} (hw : IsWord w) (hr : endsWord r.head?) {c c' : Cursor}
    {gap gap' : List Char} {crossed' : Bool} (hc : c.rest = w ++ r)
    (hg : plainGap ⟨r, c.index + w.length, c.line, c.column + w.length⟩ = (gap', c', crossed'))
    (least : Int) (fuel : Nat) (crossed : Bool) :
    plainText false least (fuel + 1) gap c crossed =
      if gap'.isEmpty || c'.peek = some '#' || (c'.column : Int) < least then
        (gap ++ w, c', crossed')
      else
        (gap ++ w ++ (plainText false least fuel gap' c' crossed').1,
          (plainText false least fuel gap' c' crossed').2) := by
  have hash : c.peek ≠ some '#' := fun hp => (hw.head_visible r (by rw [← hc]; exact hp)).2.2 rfl
  have hrun : plainRun false c.rest = w := hc ▸ plainRun_word hw.visible hw.last hr
  have hsteps := Cursor.steps_graphic hc fun ch hch => (hw.visible ch hch).1
  obtain ⟨x, w, rfl⟩ := List.exists_cons_of_ne_nil hw.ne_nil
  rw [plainText, if_neg hash, hrun]
  simp only [hsteps, hg, Bool.not_false, Bool.true_and]

theorem IsPhrase.head?_plainFrom {cs : List Char} (h : IsPhrase cs) (indent : Nat) (spaced : Bool)
    (column : Nat) : (plainFrom indent spaced column cs).head? = cs.head? := by
  obtain ⟨c, cs, rfl⟩ := List.exists_cons_of_ne_nil h.ne_nil
  have hc : c ≠ ' ' := (h.head_visible (c := c) rfl).2.1
  rw [plainFrom, if_neg hc]
  rfl

/-- The gap between two runs reads back, whether or not it was written as a line break. -/
theorem exists_plainGap {cs tail : List Char} (h : IsPhrase cs) {indent : Nat} {least : Int}
    (hi : least ≤ indent) (hi' : indent ≠ 0) (n column : Nat) {c : Cursor}
    (hc : c.rest = plainFrom indent false column (List.replicate (n + 1) ' ' ++ cs) ++ tail)
    (hcol : least ≤ c.column) :
    ∃ column' c' crossed, plainGap c = (List.replicate (n + 1) ' ', c', crossed) ∧
      c'.rest = plainFrom indent true column' cs ++ tail ∧ c'.rest.length < c.rest.length ∧
        least ≤ c'.column ∧ c.line ≤ c'.line ∧ c'.peek ≠ some '#' := by
  obtain ⟨column', hg⟩ := plainFrom_gap indent n column cs
  let rest := plainFrom indent true column' cs ++ tail
  have hhead : ∀ ch ∈ rest.head?, isGraphic ch ∧ ch ≠ ' ' ∧ ch ≠ '#' := by
    intro ch hch
    refine h.head_visible ?_
    obtain ⟨x, xs, rfl⟩ := List.exists_cons_of_ne_nil h.ne_nil
    rw [List.head?_append, h.head?_plainFrom] at hch
    exact hch
  have hhead' : ∀ ch ∈ rest.head?, isGraphic ch ∧ ch ≠ ' ' := fun ch hch =>
    ⟨(hhead ch hch).1, (hhead ch hch).2.1⟩
  have hash : rest.head? ≠ some '#' := fun hp => (hhead '#' hp).2.2 rfl
  rcases hg with hg | ⟨rfl, hg⟩
  · rw [hg, List.append_assoc] at hc
    refine ⟨column', _, _, plainGap_spaces hc hhead', rfl, ?_, ?_, Nat.le_refl _, hash⟩
    · simp [hc]
    · exact Int.le_trans hcol (Int.ofNat_le.mpr (Nat.le_add_right _ _))
  · rw [hg, List.append_assoc, newLine, List.cons_append] at hc
    refine ⟨column', _, _, plainGap_line hc hhead' fun c' hc' => ?_, rfl, ?_, hi, Nat.le_succ _,
      hash⟩
    · obtain ⟨k, rfl⟩ := Nat.exists_eq_succ_of_ne_zero hi'
      rw [List.replicate_succ] at hc'
      exact Cursor.atSeparator_eq_false (by simp [hc']) (by simp [hc'])
    · simp only [hc, List.length_cons, List.length_append]
      omega

/-- A phrase reads back from what is written for it, and the line break behind it is passed. -/
theorem plainText_plainFrom {cs tail : List Char} (h : IsPhrase cs) {indent n : Nat} {least : Int}
    (hi : least ≤ indent) (hn : (n : Int) < least) (ht : isLineHead tail) (spaced : Bool)
    (column fuel : Nat) (gap : List Char) (c : Cursor) (crossed : Bool)
    (hc : c.rest = plainFrom indent spaced column cs ++ '\n' :: (List.replicate n ' ' ++ tail))
    (hcol : least ≤ c.column) (hf : c.rest.length < fuel) :
    ∃ c', plainText false least fuel gap c crossed = (gap ++ cs, c', true) ∧ c'.rest = tail ∧
      c'.column = n ∧ c.line < c'.line := by
  -- along the phrase: the gap behind a word is read with it, and the rest from there on
  induction h generalizing spaced column fuel gap c crossed with
  | @word w hw =>
    obtain ⟨fuel, rfl⟩ := Nat.exists_eq_succ_of_ne_zero (Nat.ne_zero_of_lt hf)
    rw [← List.append_nil w, plainFrom_word (fun x hx => (hw.visible x hx).2) hw.ne_nil,
      plainFrom, List.append_nil] at hc
    have hgap := plainGap_line (c := ⟨'\n' :: (List.replicate n ' ' ++ tail),
      c.index + w.length, c.line, c.column + w.length⟩) rfl
      (fun ch hch => ⟨(head_of_isLineHead ht hch).1, (head_of_isLineHead ht hch).2.1⟩)
      fun c' hc' => not_atSeparator ht hc'
    refine ⟨⟨tail, c.index + w.length + 1 + n, c.line + 1, n⟩, ?_, rfl, rfl, Nat.lt_succ_self _⟩
    rw [plainText_word hw rfl hc hgap, if_pos (by simp [hn])]
  | @cons w k cs hw hcs ih =>
    obtain ⟨fuel, rfl⟩ := Nat.exists_eq_succ_of_ne_zero (Nat.ne_zero_of_lt hf)
    rw [plainFrom_word (fun x hx => (hw.visible x hx).2) hw.ne_nil, List.append_assoc] at hc
    let after := plainFrom indent false (column + w.length) (List.replicate (k + 1) ' ' ++ cs) ++
      '\n' :: (List.replicate n ' ' ++ tail)
    have hblank : endsWord after.head? := by
      rcases plainFrom_gap indent k (column + w.length) cs with ⟨column', hg | ⟨-, hg⟩⟩ <;>
        simp only [after, hg, List.append_assoc] <;> rfl
    obtain ⟨column', c₁, crossed₁, hgap, hrest, hlen, hcol₁, hline₁, hash⟩ :=
      exists_plainGap hcs hi (by omega) k (column + w.length)
        (c := ⟨after, c.index + w.length, c.line, c.column + w.length⟩) rfl
        (Int.le_trans hcol (Int.ofNat_le.mpr (Nat.le_add_right _ _)))
    have hlen' : c₁.rest.length < fuel := by
      have hafter : c₁.rest.length < after.length := hlen
      have htotal : w.length + after.length < fuel + 1 := by
        rw [hc, List.length_append] at hf
        exact hf
      omega
    obtain ⟨c₂, hread, htail, hend, hline₂⟩ :=
      ih true column' fuel (List.replicate (k + 1) ' ') c₁ crossed₁ hrest hcol₁ hlen'
    refine ⟨c₂, ?_, htail, hend, Nat.lt_of_le_of_lt hline₁ hline₂⟩
    rw [plainText_word hw hblank hc hgap, if_neg (by simp [hash, hcol₁, List.replicate_succ]),
      hread]
    simp

end AuthMap.Yaml
