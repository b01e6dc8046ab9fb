import AuthMap.Json.Parser
import AuthMap.Json.Printer
import AuthMap.Proofs.Yaml.Escapes

/-! Texts in JSON. A high half and a low one behind it are written as one character beyond the
basic plane is, and read back as that; everything else is read back as it was. -/

namespace AuthMap

open Text (CodePoint)

/-! ### Pairs of halves -/

namespace Text

def IsLow : CodePoint → Prop
  | .half j => 0x400 ≤ j.val
  | .char _ => False

/-- A high half of a surrogate pair, and a low one. -/
def Pairs : CodePoint → CodePoint → Prop
  | .half i, q => i.val < 0x400 ∧ IsLow q
  | .char _, _ => False

/-- No high half is directly followed by a low one. -/
def Unpaired (t : Text) : Prop := t.IsChain fun p q => ¬ Pairs p q

/-- The text with the character in the place of each pair that stands for one. -/
def paired : Text → Text
  | .half i :: .half j :: t =>
    if i.val < 0x400 ∧ 0x400 ≤ j.val then
      .ofNat (0x10000 + i * 0x400 + (j - 0x400)) :: paired t
    else .half i :: paired (.half j :: t)
  | p :: t => p :: paired t
  | [] => []

theorem length_paired_le (t : Text) : (paired t).length ≤ t.length := by
  fun_induction paired t with
  | case1 i j t h ih => simp only [List.length_cons]; omega
  | case2 i j t h ih => simpa using ih
  | case3 p t h ih => simpa using ih
  | case4 => exact Nat.le_refl 0

theorem paired_eq_self_iff {t : Text} : paired t = t ↔ t.Unpaired := by
  fun_induction paired t with
  | case1 i j t h ih =>
    constructor
    · intro heq
      have hlength := congrArg List.length heq
      have hle := length_paired_le t
      simp only [List.length_cons] at hlength
      omega
    · intro hchain
      exact absurd h (List.isChain_cons_cons.mp hchain).1
  | case2 i j t h ih =>
    rw [List.cons_inj_right, ih]
    exact ⟨fun hchain => List.isChain_cons_cons.mpr ⟨h, hchain⟩,
      fun hchain => (List.isChain_cons_cons.mp hchain).2⟩
  | case3 p t h ih =>
    rw [List.cons_inj_right, ih]
    cases t with
    | nil => exact iff_of_true .nil (.singleton p)
    | cons q t =>
      have hpq : ¬ Pairs p q := by
        rintro hpairs
        cases p with
        | char c => exact hpairs
        | half i =>
          cases q with
          | char c => exact hpairs.2
          | half j => exact h i j t rfl rfl
      exact ⟨fun hchain => List.isChain_cons_cons.mpr ⟨hpq, hchain⟩,
        fun hchain => (List.isChain_cons_cons.mp hchain).2⟩
  | case4 => exact iff_of_true rfl .nil

end Text

namespace Json

/-! ### Units -/

theorem hexDigit_lower (d : Fin 16) : Text.digitIn? 16 (Text.hexDigit d) = some d.val := by
  revert d
  decide

theorem unit?_hex {n : Nat} (h : n < 0x10000) (cs : List Char) :
    unit? (Text.hex 4 n ++ cs) = some (n, cs) := by
  have hn : Decimal.natural? 16 (Text.hex 4 n) = some n := by
    have hmap := Yaml.natural?_map_hex (f := id) hexDigit_lower (show 4 ≠ 0 by decide) h
    rwa [List.map_id] at hmap
  simp only [Text.hex, List.nil_append, List.cons_append] at hn ⊢
  rw [unit?, hn]
  rfl

/-- No unit of a low half follows. -/
def NoLow (cs : List Char) : Prop :=
  ∀ more, cs = '\\' :: 'u' :: more →
    ∃ n rest, unit? more = some (n, rest) ∧ ¬ (0xDC00 ≤ n ∧ n < 0xE000)

theorem escaped?_of_noLow {n : Nat} (h : n < 0x10000) {cs : List Char} (hcs : NoLow cs) :
    escaped? (Text.hex 4 n ++ cs) = some (.ofNat n, cs) := by
  rw [escaped?, unit?_hex h]
  dsimp only
  split
  · next more =>
    obtain ⟨lo, rest, hlo, hlow⟩ := hcs more rfl
    rw [hlo]
    simp only [Bool.and_eq_true, decide_eq_true_eq, hlow, if_false, ite_self]
  · rfl

theorem escaped?_of_not_high {n : Nat} (h : n < 0x10000) (hn : ¬ (0xD800 ≤ n ∧ n < 0xDC00))
    (cs : List Char) : escaped? (Text.hex 4 n ++ cs) = some (.ofNat n, cs) := by
  rw [escaped?, unit?_hex h]
  dsimp only
  split
  · simp only [Bool.and_eq_true, decide_eq_true_eq, hn, if_false]
  · rfl

theorem escaped?_pair {i j : Nat} (hi : i < 0x400) (hj : j < 0x400) (cs : List Char) :
    escaped? (Text.hex 4 (0xD800 + i) ++ (unitEscape (0xDC00 + j) ++ cs)) =
      some (.ofNat (0x10000 + i * 0x400 + j), cs) := by
  have hhigh : 0xD800 ≤ 0xD800 + i ∧ 0xD800 + i < 0xDC00 := by omega
  have hlow : 0xDC00 ≤ 0xDC00 + j ∧ 0xDC00 + j < 0xE000 := by omega
  simp only [escaped?, unit?_hex (show 0xD800 + i < 0x10000 by omega),
    unit?_hex (show 0xDC00 + j < 0x10000 by omega), unitEscape, List.cons_append, hhigh, hlow,
    decide_true, Bool.and_self, if_true, Nat.add_sub_cancel_left]

/-! ### Points -/

theorem stringBody_unitEscape {n fuel : Nat} {p : CodePoint} {cs rest : List Char}
    (h : escaped? (Text.hex 4 n ++ cs) = some (p, rest)) :
    stringBody (fuel + 1) (unitEscape n ++ cs) =
      (stringBody fuel rest).map fun r => (p :: r.1, r.2) := by
  rw [unitEscape, List.cons_append, List.cons_append, stringBody, h]

theorem stringBody_letter {c e : Char} (he : simpleEscape? e = some c) (fuel : Nat)
    (cs : List Char) :
    stringBody (fuel + 1) ('\\' :: e :: cs) =
      (stringBody fuel cs).map fun r => (.char c :: r.1, r.2) := by
  have hu : e ≠ 'u' := by
    rintro rfl
    cases he
  rw [stringBody]
  · rw [he]
  · exact hu

theorem stringBody_plain {c : Char} (hquote : c ≠ '"') (hslash : c ≠ '\\') (fuel : Nat)
    (cs : List Char) :
    stringBody (fuel + 1) (c :: cs) =
      (stringBody fuel cs).map fun r => (.char c :: r.1, r.2) := by
  rw [stringBody]
  all_goals simp_all

theorem charText_cases (c : Char) :
    (∃ e, simpleEscape? e = some c ∧ charText c = ['\\', e]) ∨
      (c ≠ '"' ∧ c ≠ '\\' ∧ 0x20 ≤ c.toNat ∧ charText c = [c]) ∨
      (c.toNat < 0x10000 ∧ charText c = unitEscape c.toNat) ∨
      ∃ i j, i < 0x400 ∧ j < 0x400 ∧ c.toNat = 0x10000 + i * 0x400 + j ∧
        charText c = unitEscape (0xD800 + i) ++ unitEscape (0xDC00 + j) := by
  have hlt := Yaml.toNat_lt (.char c)
  have hc : (CodePoint.char c).toNat = c.toNat := rfl
  unfold charText
  by_cases hquote : c = '"'
  · rw [if_pos hquote]
    exact Or.inl ⟨'"', by rw [hquote]; rfl, rfl⟩
  by_cases hslash : c = '\\'
  · rw [if_neg hquote, if_pos hslash]
    exact Or.inl ⟨'\\', by rw [hslash]; rfl, rfl⟩
  rw [if_neg hquote, if_neg hslash]
  split
  · next h => exact Or.inl ⟨'n', by rw [h]; rfl, rfl⟩
  split
  · next h => exact Or.inl ⟨'r', by rw [h]; rfl, rfl⟩
  split
  · next h => exact Or.inl ⟨'t', by rw [h]; rfl, rfl⟩
  split
  · next h => exact Or.inl ⟨'b', by rw [h]; rfl, rfl⟩
  split
  · next h => exact Or.inl ⟨'f', by rw [h]; rfl, rfl⟩
  split
  · next h =>
    simp only [Bool.and_eq_true, decide_eq_true_eq] at h
    exact Or.inr (Or.inl ⟨hquote, hslash, h.1, rfl⟩)
  split
  · next hn => exact Or.inr (Or.inr (Or.inl ⟨hn, rfl⟩))
  · refine Or.inr (Or.inr (Or.inr ⟨(c.toNat - 0x10000) / 0x400, (c.toNat - 0x10000) % 0x400,
      ?_, Nat.mod_lt _ (by decide), ?_, rfl⟩)) <;> omega

/-- A character is none of the units of a pair. -/
theorem not_surrogate (c : Char) : ¬ (0xD800 ≤ c.toNat ∧ c.toNat < 0xE000) := by
  have h := c.valid
  simp only [UInt32.isValidChar, Nat.isValidChar, Char.toNat] at h ⊢
  omega

theorem stringBody_charText (c : Char) (fuel : Nat) (cs : List Char) :
    stringBody (fuel + 1) (charText c ++ cs) =
      (stringBody fuel cs).map fun r => (.char c :: r.1, r.2) := by
  have hpoint : CodePoint.ofNat c.toNat = .char c := Yaml.ofNat_toNat (.char c)
  have hsurrogate := not_surrogate c
  rcases charText_cases c with
    ⟨e, he, hc⟩ | ⟨hquote, hslash, -, hc⟩ | ⟨hn, hc⟩ | ⟨i, j, hi, hj, hn, hc⟩
  · rw [hc]
    exact stringBody_letter he fuel cs
  · rw [hc]
    exact stringBody_plain hquote hslash fuel cs
  · rw [hc, ← hpoint]
    exact stringBody_unitEscape (escaped?_of_not_high hn (by omega) cs)
  · rw [hc, ← hpoint, hn, List.append_assoc]
    exact stringBody_unitEscape (escaped?_pair hi hj cs)

theorem noLow_of_unitEscape {n : Nat} (hn : n < 0x10000) (hlow : ¬ (0xDC00 ≤ n ∧ n < 0xE000))
    (cs : List Char) : NoLow (unitEscape n ++ cs) := by
  intro more h
  obtain rfl : Text.hex 4 n ++ cs = more := List.cons.inj (List.cons.inj h).2 |>.2
  exact ⟨n, cs, unit?_hex hn cs, hlow⟩

theorem noLow_of_ne {c : Char} (h : c ≠ '\\') (cs : List Char) : NoLow (c :: cs) :=
  fun _ hmore => absurd (List.cons.inj hmore).1 h

theorem noLow_charText (c : Char) (cs : List Char) : NoLow (charText c ++ cs) := by
  have hsurrogate := not_surrogate c
  rcases charText_cases c with
    ⟨e, he, hc⟩ | ⟨hquote, hslash, -, hc⟩ | ⟨hn, hc⟩ | ⟨i, j, hi, hj, hn, hc⟩
  · rw [hc]
    intro more h
    obtain rfl : e = 'u' := (List.cons.inj (List.cons.inj h).2).1
    cases he
  · rw [hc]
    exact noLow_of_ne hslash cs
  · rw [hc]
    exact noLow_of_unitEscape hn (by omega) cs
  · rw [hc, List.append_assoc]
    exact noLow_of_unitEscape (by omega) (by omega) _

theorem noLow_pointText {p : CodePoint} (h : ¬ Text.IsLow p) (cs : List Char) :
    NoLow (pointText p ++ cs) := by
  cases p with
  | char c => exact noLow_charText c cs
  | half i =>
    have hi : ¬ 0x400 ≤ i.val := h
    refine noLow_of_unitEscape (n := 0xD800 + i) ?_ ?_ cs <;> omega

/-! ### Texts -/

/-- No low half is written at the head. -/
theorem noLow_flatMap {t : Text} (h : ∀ j t', t = .half j :: t' → j.val < 0x400)
    (rest : List Char) : NoLow (t.flatMap pointText ++ '"' :: rest) := by
  cases t with
  | nil => exact noLow_of_ne (by decide) rest
  | cons p t =>
    rw [List.flatMap_cons, List.append_assoc]
    refine noLow_pointText (fun hlow => ?_) _
    cases p with
    | char c => exact hlow
    | half j => exact Nat.not_le.mpr (h j t rfl) hlow

theorem stringBody_half {i : Fin 0x800} {cs : List Char} (h : i.val < 0x400 → NoLow cs)
    (fuel : Nat) :
    stringBody (fuel + 1) (pointText (.half i) ++ cs) =
      (stringBody fuel cs).map fun r => (.half i :: r.1, r.2) := by
  have hpoint : CodePoint.ofNat (0xD800 + i) = .half i := Yaml.ofNat_toNat (.half i)
  have hi := i.isLt
  have hescaped : escaped? (Text.hex 4 (0xD800 + i) ++ cs) = some (.half i, cs) := by
    rw [← hpoint]
    by_cases hhigh : i.val < 0x400
    · exact escaped?_of_noLow (by omega) (h hhigh)
    · exact escaped?_of_not_high (by omega) (by omega) cs
  exact stringBody_unitEscape hescaped

theorem stringBody_pair {i j : Fin 0x800} (hi : i.val < 0x400) (hj : 0x400 ≤ j.val)
    (fuel : Nat) (cs : List Char) :
    stringBody (fuel + 1) (pointText (.half i) ++ (pointText (.half j) ++ cs)) =
      (stringBody fuel cs).map fun r =>
        (.ofNat (0x10000 + i * 0x400 + (j - 0x400)) :: r.1, r.2) := by
  have hlow : pointText (.half j) = unitEscape (0xDC00 + (j - 0x400)) := by
    have hunit : 0xD800 + j.val = 0xDC00 + (j - 0x400) := by omega
    exact congrArg unitEscape hunit
  have hlt := j.isLt
  rw [hlow]
  exact stringBody_unitEscape (escaped?_pair hi (by omega) cs)

/-- Every point takes one turn, and a pair of halves that is joined one for both. -/
theorem stringBody_flatMap (t : Text) (rest : List Char) (fuel : Nat) :
    stringBody (t.length + fuel + 1) (t.flatMap pointText ++ '"' :: rest) =
      some (t.paired, rest) := by
  fun_induction Text.paired t generalizing fuel with
  | case1 i j t hpair ih =>
    rw [List.flatMap_cons, List.flatMap_cons, List.append_assoc, List.append_assoc,
      stringBody_pair hpair.1 hpair.2]
    have hfuel : (CodePoint.half i :: .half j :: t).length + fuel = t.length + (fuel + 1) + 1 := by
      simp only [List.length_cons]
      omega
    rw [hfuel, ih]
    rfl
  | case2 i j t hpair ih =>
    have hlow : i.val < 0x400 →
        NoLow ((CodePoint.half j :: t).flatMap pointText ++ '"' :: rest) := by
      intro hi
      refine noLow_flatMap (fun j' t' h => ?_) rest
      obtain ⟨h, -⟩ := List.cons.inj h
      obtain rfl := CodePoint.half.inj h
      omega
    rw [List.flatMap_cons, List.append_assoc, List.length_cons, Nat.succ_add,
      stringBody_half hlow, ih]
    rfl
  | case3 p t hp ih =>
    rw [List.flatMap_cons, List.append_assoc, List.length_cons, Nat.succ_add]
    cases p with
    | char c =>
      rw [pointText, stringBody_charText, ih]
      rfl
    | half i =>
      rw [stringBody_half fun _ => noLow_flatMap (fun j t' h => (hp i j t' rfl h).elim) rest, ih]
      rfl
  | case4 => rfl

theorem pointText_ne_nil (p : CodePoint) : pointText p ≠ [] := by
  cases p with
  | half i => exact List.cons_ne_nil _ _
  | char c =>
    rcases charText_cases c with
      ⟨e, -, hc⟩ | ⟨-, -, -, hc⟩ | ⟨-, hc⟩ | ⟨i, j, -, -, -, hc⟩
    all_goals
      rw [pointText, hc]
      exact List.cons_ne_nil _ _

theorem length_le_flatMap (t : Text) : t.length ≤ (t.flatMap pointText).length := by
  induction t with
  | nil => exact Nat.le_refl 0
  | cons p t ih =>
    have hpos := List.length_pos_of_ne_nil (pointText_ne_nil p)
    rw [List.flatMap_cons, List.length_append, List.length_cons]
    omega

/-- What stands behind the opening quote is read up to the closing one. -/
theorem string?_stringText (t : Text) (rest : List Char) :
    string? (t.flatMap pointText ++ '"' :: rest) = some (t.paired, rest) := by
  have hle := length_le_flatMap t
  obtain ⟨fuel, hfuel⟩ :=
    Nat.exists_eq_add_of_le (show t.length ≤ (t.flatMap pointText ++ '"' :: rest).length by
      rw [List.length_append]
      omega)
  rw [string?, hfuel]
  exact stringBody_flatMap t rest fuel

/-! ### No escape character -/

theorem escape_notMem_unitEscape (n : Nat) : '\x1b' ∉ unitEscape n := by
  have hdigit (d : Fin 16) : Text.hexDigit d ≠ '\x1b' := by
    revert d
    decide
  have hhex (width n : Nat) : '\x1b' ∉ Text.hex width n := by
    induction width generalizing n with
    | zero => exact List.not_mem_nil
    | succ width ih =>
      rw [Text.hex, List.mem_append, List.mem_singleton, not_or]
      exact ⟨ih _, (hdigit ⟨n % 16, Nat.mod_lt _ (by decide)⟩).symm⟩
  simp only [unitEscape, List.mem_cons, not_or]
  exact ⟨by decide, by decide, hhex 4 n⟩

theorem escape_notMem_pointText (p : CodePoint) : '\x1b' ∉ pointText p := by
  cases p with
  | half i => exact escape_notMem_unitEscape _
  | char c =>
    rw [pointText]
    rcases charText_cases c with ⟨e, he, hc⟩ | ⟨-, -, hspace, hc⟩ | ⟨-, hc⟩ | ⟨i, j, -, -, -, hc⟩
    · have hne : e ≠ '\x1b' := by
        rintro rfl
        cases he
      rw [hc]
      simp [hne.symm]
    · have hne : c ≠ '\x1b' := by
        rintro rfl
        revert hspace
        decide
      rw [hc]
      simp [hne.symm]
    · rw [hc]
      exact escape_notMem_unitEscape _
    · rw [hc, List.mem_append, not_or]
      exact ⟨escape_notMem_unitEscape _, escape_notMem_unitEscape _⟩

theorem escape_notMem_stringText (t : Text) : '\x1b' ∉ stringText t := by
  simp only [stringText, List.mem_cons, List.mem_append, List.mem_flatMap, List.not_mem_nil,
    or_false, not_or, not_exists, not_and]
  exact ⟨by decide, fun p _ => escape_notMem_pointText p, by decide⟩

end Json

end AuthMap
