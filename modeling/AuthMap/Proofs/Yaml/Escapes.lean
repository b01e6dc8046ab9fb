import Mathlib.Algebra.Group.Nat.Defs
import AuthMap.Proofs.Yaml.Quoting

/-! Text in double quotes: every code point reads back from its escape, and a line that ends in a
backslash goes on as if it had not ended. -/

namespace AuthMap.Yaml

open Text (CodePoint)

/-! ### Hexadecimal digits -/

theorem hexDigit_upper (d : Fin 16) :
    Text.digitIn? 16 (Text.hexDigit d).toUpper = some d.val ∧
      isHexDigit (Text.hexDigit d).toUpper ∧ isGraphic (Text.hexDigit d).toUpper := by
  revert d
  decide

theorem upperHex_succ (width n : Nat) :
    upperHex (width + 1) n = upperHex width (n / 16) ++ [(Text.hexDigit (n % 16)).toUpper] := by
  simp [upperHex, Text.hex]

theorem length_hex (width n : Nat) : (Text.hex width n).length = width := by
  induction width generalizing n with
  | zero => rfl
  | succ width ih => rw [Text.hex, List.length_append, ih, List.length_singleton]

theorem length_upperHex (width n : Nat) : (upperHex width n).length = width := by
  rw [upperHex, List.length_map, length_hex]

theorem isHexDigit_of_mem_upperHex {width n : Nat} {c : Char} (h : c ∈ upperHex width n) :
    isHexDigit c ∧ isGraphic c := by
  induction width generalizing n with
  | zero => simp [upperHex, Text.hex] at h
  | succ width ih =>
    rw [upperHex_succ, List.mem_append, List.mem_singleton] at h
    rcases h with h | rfl
    · exact ih h
    · exact (hexDigit_upper ⟨n % 16, Nat.mod_lt _ (by decide)⟩).2

theorem ofDigits?_append (base acc : Nat) (as bs : List Char) :
    Decimal.ofDigits? base acc (as ++ bs) =
      (Decimal.ofDigits? base acc as).bind fun n => Decimal.ofDigits? base n bs := by
  induction as generalizing acc with
  | nil => rfl
  | cons a as ih =>
    rw [List.cons_append, Decimal.ofDigits?, Decimal.ofDigits?]
    cases Text.digitIn? base a with
    | none => rfl
    | some d => exact ih _

/-- Digits of either case are read back. -/
theorem ofDigits?_map_hex {f : Char → Char}
    (hf : ∀ d : Fin 16, Text.digitIn? 16 (f (Text.hexDigit d)) = some d.val) (width n acc : Nat) :
    Decimal.ofDigits? 16 acc ((Text.hex width n).map f) =
      some (acc * 16 ^ width + n % 16 ^ width) := by
  induction width generalizing n with
  | zero => simp [Text.hex, Decimal.ofDigits?, Nat.mod_one]
  | succ width ih =>
    have hd := hf ⟨n % 16, Nat.mod_lt _ (by decide)⟩
    have hsplit : n % 16 ^ (width + 1) = n / 16 % 16 ^ width * 16 + n % 16 := by
      rw [Nat.pow_succ, Nat.mul_comm (16 ^ width), Nat.mod_mul]
      omega
    rw [Text.hex, List.map_append, ofDigits?_append, ih, Option.bind_some, List.map_singleton,
      Decimal.ofDigits?, hd, hsplit, Nat.pow_succ]
    simp only [Decimal.ofDigits?, Option.some.injEq]
    rw [Nat.add_mul, Nat.mul_assoc]
    omega

theorem natural?_map_hex {f : Char → Char}
    (hf : ∀ d : Fin 16, Text.digitIn? 16 (f (Text.hexDigit d)) = some d.val) {width n : Nat}
    (hw : width ≠ 0) (hn : n < 16 ^ width) :
    Decimal.natural? 16 ((Text.hex width n).map f) = some n := by
  have hne : (Text.hex width n).map f ≠ [] := List.ne_nil_of_length_pos (by
    rw [List.length_map, length_hex]
    exact Nat.pos_of_ne_zero hw)
  obtain ⟨c, cs, hc⟩ := List.exists_cons_of_ne_nil hne
  have hv := ofDigits?_map_hex hf width n 0
  rw [hc] at hv ⊢
  rw [Decimal.natural?, hv, Nat.zero_mul, Nat.zero_add, Nat.mod_eq_of_lt hn]
  exact List.cons_ne_nil _ _

theorem natural?_upperHex {width n : Nat} (hw : width ≠ 0) (hn : n < 16 ^ width) :
    Decimal.natural? 16 (upperHex width n) = some n :=
  natural?_map_hex (fun d => (hexDigit_upper d).1) hw hn

/-! ### Code points -/

theorem toNat_lt (p : CodePoint) : p.toNat < 0x110000 := by
  cases p with
  | char c =>
    have h := c.valid
    simp only [UInt32.isValidChar, Nat.isValidChar] at h
    change c.toNat < 0x110000
    simp only [Char.toNat] at h ⊢
    omega
  | half i =>
    have h := i.isLt
    simp only [CodePoint.toNat]
    omega

theorem ofNat_toNat (p : CodePoint) : CodePoint.ofNat p.toNat = p := by
  cases p with
  | char c =>
    have h := c.valid
    have hn : ¬ (0xD800 ≤ c.toNat ∧ c.toNat < 0xE000) := by
      simp only [UInt32.isValidChar, Nat.isValidChar, Char.toNat] at h ⊢
      omega
    simp [CodePoint.ofNat, CodePoint.toNat, hn]
  | half i =>
    have h := i.isLt
    simp [CodePoint.ofNat, CodePoint.toNat, show 0xD800 + i.val < 0xE000 by omega]

theorem hexPoint_upperHex {width : Nat} {p : CodePoint} (hw : width ≠ 0)
    (hp : p.toNat < 16 ^ width) : hexPoint (upperHex width p.toNat) = .ok p := by
  have hlt := toNat_lt p
  simp only [hexPoint, natural?_upperHex hw hp, if_neg (show ¬ 0x80000000 ≤ p.toNat by omega),
    if_neg (show ¬ 0x110000 ≤ p.toNat by omega), ofNat_toNat]

theorem piece_numberEscape (p : CodePoint) (cs : List Char) :
    Piece true (numberEscape p.toNat) [p] cs := by
  have hlt := toNat_lt p
  have hall (width : Nat) : (upperHex width p.toNat).all isHexDigit :=
    List.all_eq_true.mpr fun c hc => (isHexDigit_of_mem_upperHex hc).1
  unfold numberEscape
  split_ifs with h₁ h₂
  · exact .number rfl (by rw [length_upperHex]; rfl) (hall 2)
      (hexPoint_upperHex (by decide) (by omega))
  · exact .number rfl (by rw [length_upperHex]; rfl) (hall 4)
      (hexPoint_upperHex (by decide) (by omega))
  · exact .number rfl (by rw [length_upperHex]; rfl) (hall 8)
      (hexPoint_upperHex (by decide) (by omega))

theorem letterEscape?_of_escapeLetter? {c e : Char} (h : escapeLetter? c = some e) :
    letterEscape? e = some c ∧ isGraphic e := by
  unfold escapeLetter? at h
  -- one turn for each letter of the table
  iterate 15
    rcases ite_eq_iff.mp h with ⟨rfl, he⟩ | ⟨-, h⟩
    · obtain rfl := Option.some.inj he
      exact ⟨rfl, rfl⟩
  cases h

theorem piece_of_inDoubleQuotes {p : CodePoint} {e : List Char} (h : inDoubleQuotes p = .inr e)
    (cs : List Char) : Piece true e [p] cs := by
  cases p with
  | half i =>
    obtain rfl := Sum.inr.inj h
    exact piece_numberEscape _ cs
  | char c =>
    simp only [inDoubleQuotes] at h
    split at h
    · next hl =>
      obtain rfl := Sum.inr.inj h
      exact .letter (letterEscape?_of_escapeLetter? hl).1
    · split at h
      · cases h
      · obtain rfl := Sum.inr.inj h
        exact piece_numberEscape (.char c) cs

theorem of_inDoubleQuotes {p : CodePoint} {c : Char} (h : inDoubleQuotes p = .inl c) :
    p = .char c ∧ isGraphic c ∧ c ≠ '"' ∧ c ≠ '\\' := by
  cases p with
  | half i => cases h
  | char d =>
    simp only [inDoubleQuotes] at h
    split at h
    · cases h
    · next hl =>
      split at h
      · next hg =>
        obtain rfl := Sum.inl.inj h
        refine ⟨rfl, hg, ?_, ?_⟩ <;> rintro rfl <;> exact absurd hl (by decide)
      · cases h

theorem head?_numberEscape (n : Nat) : (numberEscape n).head? = some '\\' := by
  unfold numberEscape
  split_ifs <;> rfl

theorem head?_of_inDoubleQuotes {p : CodePoint} {e : List Char} (h : inDoubleQuotes p = .inr e) :
    e.head? = some '\\' := by
  cases p with
  | half i => exact Sum.inr.inj h ▸ head?_numberEscape _
  | char c =>
    simp only [inDoubleQuotes] at h
    split at h
    · exact Sum.inr.inj h ▸ rfl
    · split at h
      · cases h
      · exact Sum.inr.inj h ▸ head?_numberEscape _

/-! ### Lines -/

theorem quotedText_shown {c : Char} (hg : isGraphic c) (hq : c ≠ '"') (hb : c ≠ '\\')
    {cs r : List Char} {t : Text} (hcs : ∀ x ∈ cs.head?, isGraphic x)
    (h : QuotedText true cs t r) : QuotedText true (c :: cs) (.char c :: t) r := by
  by_cases hs : c = ' '
  · subst hs
    exact .space hcs h
  by_cases ha : c = '\''
  · subst ha
    exact .piece .apostrophe h
  · exact .run (isQuotedRun_of_isGraphic hg hs ha hq hb) h

theorem quotedText_break {indent : Nat} (hi : indent ≠ 0) {next : Option CodePoint}
    (hn : next ≠ some (.char ' ')) {cs r : List Char} {t : Text}
    (hcs : ∀ x ∈ cs.head?, isGraphic x ∧ x ≠ ' ') (h : QuotedText true cs t r) :
    QuotedText true (escapedBreak indent next ++ cs) t r := by
  rw [escapedBreak, if_neg hn, List.append_nil]
  exact .piece (.join hi hcs) h

/-- A space that begins a line is marked, so that it does not count as indentation. -/
theorem quotedText_break_space {indent : Nat} (hi : indent ≠ 0) {cs r : List Char} {t : Text}
    (h : QuotedText true cs t r) :
    QuotedText true (escapedBreak indent (some (.char ' ')) ++ ' ' :: cs) (.char ' ' :: t) r := by
  rw [escapedBreak, if_pos rfl, List.append_assoc]
  exact .piece (.join hi (by simp; decide)) (.piece (.letter rfl) h)

theorem doubleFrom_escape {p : CodePoint} {e : List Char} (h : inDoubleQuotes p = .inr e)
    (indent : Nat) (first fresh : Bool) (column : Nat) (t : Text) :
    doubleFrom indent first fresh column (p :: t) =
        e ++ doubleFrom indent false true (column + e.length) t ∨
      doubleFrom indent first fresh column (p :: t) = e ++ (escapedBreak indent t.head? ++
        doubleFrom indent false true (columnAfterBreak indent t.head?) t) := by
  simp only [doubleFrom, h]
  split_ifs
  · exact Or.inr (List.append_assoc ..)
  · exact Or.inl rfl

theorem doubleFrom_shown {p : CodePoint} {c : Char} (h : inDoubleQuotes p = .inl c)
    (indent : Nat) (first fresh : Bool) (column : Nat) (t : Text) :
    ∃ column', doubleFrom indent first fresh column (p :: t) =
        c :: doubleFrom indent false false column' t ∨
      doubleFrom indent first fresh column (p :: t) =
        escapedBreak indent (some p) ++ c :: doubleFrom indent false false column' t := by
  simp only [doubleFrom, h]
  split_ifs
  · exact ⟨_, Or.inr rfl⟩
  · exact ⟨_, Or.inl rfl⟩

/-- A line that has just begun is not left before its first space. -/
theorem doubleFrom_space {indent : Nat} (hi : indent < lineWidth) (t : Text) :
    doubleFrom indent false true (columnAfterBreak indent (some (.char ' '))) (.char ' ' :: t) =
      ' ' :: doubleFrom indent false false (indent + 2) t := by
  have hc : inDoubleQuotes (.char ' ') = .inl ' ' := rfl
  have hw : ¬ lineWidth < indent + 1 := by omega
  simp [doubleFrom, hc, columnAfterBreak, hw]

theorem graphic_doubleFrom (indent : Nat) (first fresh : Bool) (column : Nat) (t : Text)
    (r : List Char) {c : Char}
    (hc : c ∈ (doubleFrom indent first fresh column t ++ '"' :: r).head?) :
    isGraphic c ∧ (t.head? ≠ some (.char ' ') → c ≠ ' ') := by
  cases t with
  | nil =>
    obtain rfl : '"' = c := by simpa [doubleFrom] using hc
    exact ⟨rfl, fun _ => by decide⟩
  | cons p t =>
    have hmark : isGraphic '\\' ∧ ((p :: t).head? ≠ some (.char ' ') → '\\' ≠ ' ') :=
      ⟨rfl, fun _ => by decide⟩
    cases hp : inDoubleQuotes p with
    | inr e =>
      have hhead := head?_of_inDoubleQuotes hp
      obtain rfl : '\\' = c := by
        rcases doubleFrom_escape hp indent first fresh column t with h | h <;>
          simpa [h, List.head?_append, hhead] using hc
      exact hmark
    | inl d =>
      obtain ⟨rfl, hg, -, -⟩ := of_inDoubleQuotes hp
      rcases doubleFrom_shown hp indent first fresh column t with ⟨column', h | h⟩
      · obtain rfl : d = c := by simpa [h] using hc
        exact ⟨hg, fun hs he => hs (by simp [he])⟩
      · obtain rfl : '\\' = c := by simpa [h, escapedBreak] using hc
        exact hmark

theorem quotedText_doubleFrom {indent : Nat} (hi : indent ≠ 0) (hi' : indent < lineWidth)
    (first fresh : Bool) (column : Nat) (t : Text) (r : List Char) :
    QuotedText true (doubleFrom indent first fresh column t ++ '"' :: r) t r := by
  -- a space behind an escaped break is read with the break, so the rest may be shorter by two
  induction hn : t.length using Nat.strongRecOn generalizing t first fresh column with
  | ind n ih =>
    cases t with
    | nil => exact .close (.stop (.close (by simp)))
    | cons p t =>
      have hrec (first fresh : Bool) (column : Nat) :=
        ih t.length (by rw [← hn]; exact Nat.lt_succ_self _) first fresh column t rfl
      cases hp : inDoubleQuotes p with
      | inr e =>
        have hpiece := fun cs => piece_of_inDoubleQuotes hp cs
        rcases doubleFrom_escape hp indent first fresh column t with h | h
        · rw [h, List.append_assoc]
          exact .piece (hpiece _) (hrec _ _ _)
        rw [h, List.append_assoc, List.append_assoc]
        by_cases hs : t.head? = some (.char ' ')
        · obtain ⟨t, rfl⟩ := List.head?_eq_some_iff.mp hs
          rw [List.head?_cons, doubleFrom_space hi']
          exact .piece (hpiece _) (quotedText_break_space hi
            (ih t.length (by rw [← hn, List.length_cons, List.length_cons]; omega) _ _ _ _ rfl))
        · refine .piece (hpiece _) (quotedText_break hi hs (fun x hx => ?_) (hrec _ _ _))
          have hv := graphic_doubleFrom _ _ _ _ _ _ hx
          exact ⟨hv.1, hv.2 hs⟩
      | inl c =>
        obtain ⟨rfl, hg, hq, hb⟩ := of_inDoubleQuotes hp
        have hshown (column : Nat) := quotedText_shown hg hq hb
          (fun x hx => (graphic_doubleFrom _ _ _ _ _ _ hx).1) (hrec false false column)
        rcases doubleFrom_shown hp indent first fresh column t with ⟨column', h | h⟩
        · rw [h]
          exact hshown column'
        rw [h, List.append_assoc, List.cons_append]
        by_cases hs : c = ' '
        · subst hs
          exact quotedText_break_space hi (hrec _ _ _)
        · exact quotedText_break hi (by simpa using hs) (by simpa using ⟨hg, hs⟩) (hshown column')

end AuthMap.Yaml
