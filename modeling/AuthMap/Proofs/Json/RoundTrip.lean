import AuthMap.Proofs.Json.Strings

/-! Values made of texts, sequences and objects, read back from what is written of them. -/

namespace AuthMap

theorem Text.paired_ofString (s : String) : paired (ofString s) = ofString s := by
  rw [paired_eq_self_iff]
  have hchars (cs : List Char) : (ofChars cs).Unpaired := by
    induction cs with
    | nil => exact .nil
    | cons c cs ih =>
      cases cs with
      | nil => exact .singleton _
      | cons c' cs => exact List.isChain_cons_cons.mpr ⟨id, ih⟩
  exact hchars s.toList

namespace Json

/-! ### Values made of texts -/

mutual

def Textual : Json → Prop
  | .str _ => True
  | .arr js => TextualItems js
  | .obj fs => TextualFields fs
  | _ => False

def TextualItems : List Json → Prop
  | [] => True
  | j :: js => Textual j ∧ TextualItems js

def TextualFields : List (String × Json) → Prop
  | [] => True
  | f :: fs => Textual f.2 ∧ TextualFields fs

end

mutual

/-- The value with the pairs of halves in its texts joined. -/
def paired : Json → Json
  | .str t => .str t.paired
  | .arr js => .arr (pairedItems js)
  | .obj fs => .obj (pairedFields fs)
  | j => j

def pairedItems : List Json → List Json
  | [] => []
  | j :: js => paired j :: pairedItems js

def pairedFields : List (String × Json) → List (String × Json)
  | [] => []
  | f :: fs => (f.1, paired f.2) :: pairedFields fs

end

/-! ### Space -/

def Blank (cs : List Char) : Prop := ∀ c ∈ cs, isSpace c = true

/-- Elements are set apart by the signs that have to be there and by space. -/
structure Spacing.IsBlank (sp : Spacing) : Prop where
  opened : ∀ d, Blank (sp.opened d)
  between : ∀ d, ∃ gap, sp.between d = ',' :: gap ∧ Blank gap
  closed : ∀ d, Blank (sp.closed d)
  colon : ∃ gap, sp.colon = ':' :: gap ∧ Blank gap

theorem blank_line (d : Nat) : Blank (line d) := by
  intro c hc
  rcases List.mem_cons.mp hc with rfl | hc
  · rfl
  · obtain rfl := List.eq_of_mem_replicate hc
    rfl

theorem isBlank_spread : spread.IsBlank where
  opened d := blank_line (d + 1)
  between d := ⟨line (d + 1), rfl, blank_line (d + 1)⟩
  closed := blank_line
  colon := ⟨[' '], rfl, by simp [Blank, isSpace]⟩

theorem skipSpace_append {gap : List Char} (h : Blank gap) (cs : List Char) :
    skipSpace (gap ++ cs) = skipSpace cs := List.dropWhile_append_of_pos h

theorem skipSpace_cons {c : Char} (h : isSpace c = false) (cs : List Char) :
    skipSpace (c :: cs) = c :: cs := List.dropWhile_cons_of_neg (by simp [h])

theorem value?_gap {gap : List Char} (h : Blank gap) (fuel : Nat) (cs : List Char) :
    value? fuel (gap ++ cs) = value? fuel cs := by
  cases fuel with
  | zero => rfl
  | succ fuel => simp only [value?, skipSpace_append h]

/-! ### Reading -/

theorem name?_stringText (k : String) (rest : List Char) :
    name? ((Text.ofString k).flatMap pointText ++ '"' :: rest) = some (k, rest) := by
  rw [name?, string?_stringText, Text.paired_ofString]
  simp [Text.string?_ofString]

theorem value?_quote (fuel : Nat) (cs : List Char) :
    value? (fuel + 1) ('"' :: cs) = (string? cs).map fun r => (.str r.1, r.2) := by
  rw [value?, skipSpace_cons rfl]
  rfl

theorem value?_items {fuel : Nat} {cs rest : List Char} {c : Char} (hc : c ≠ ']')
    (h : skipSpace cs = c :: rest) :
    value? (fuel + 1) ('[' :: cs) =
      (items? fuel (c :: rest)).map fun r => (.arr r.1, r.2) := by
  rw [value?, skipSpace_cons rfl]
  simp only [h]
  split
  · next heq => exact absurd (List.cons.inj heq).1 hc
  · rfl

theorem value?_fields {fuel : Nat} {cs rest : List Char} {c : Char} (hc : c ≠ '}')
    (h : skipSpace cs = c :: rest) :
    value? (fuel + 1) ('{' :: cs) =
      (fields? fuel (c :: rest)).map fun r => (.obj r.1, r.2) := by
  rw [value?, skipSpace_cons rfl]
  simp only [h]
  split
  · next heq => exact absurd (List.cons.inj heq).1 hc
  · rfl

/-- What is written of a value starts with a sign that opens it. -/
theorem text_eq_cons (sp : Spacing) (d : Nat) {j : Json} (hj : j.Textual) :
    ∃ c cs, text sp d j = c :: cs ∧ isSpace c = false ∧ c ≠ ']' := by
  cases j with
  | str t => exact ⟨_, _, rfl, rfl, by decide⟩
  | arr js => cases js <;> exact ⟨_, _, rfl, rfl, by decide⟩
  | obj fs => cases fs <;> exact ⟨_, _, rfl, rfl, by decide⟩
  | null | bool | int | real => exact hj.elim

theorem items?_eq {fuel : Nat} {cs rest rest' : List Char} {j : Json} {c : Char}
    (hj : value? fuel cs = some (j, rest)) (hrest : skipSpace rest = c :: rest') :
    items? (fuel + 1) cs =
      if c = ',' then (items? fuel rest').map fun r => (j :: r.1, r.2)
      else if c = ']' then some ([j], rest') else none := by
  rw [items?]
  simp only [hj, hrest]
  split
  · next heq =>
    obtain ⟨rfl, rfl⟩ := List.cons.inj heq
    rfl
  · next heq =>
    obtain ⟨rfl, rfl⟩ := List.cons.inj heq
    rfl
  · next hcomma hbracket =>
    rw [if_neg fun hc => hcomma rest' (by rw [hc]), if_neg fun hc => hbracket rest' (by rw [hc])]

theorem fields?_eq {fuel : Nat} {cs rest rest' : List Char} {k : String} {j : Json} {c : Char}
    (hj : value? fuel cs = some (j, rest)) (hrest : skipSpace rest = c :: rest') :
    fields? (fuel + 1) (stringText k ++ ':' :: cs) =
      if c = ',' then (fields? fuel rest').map fun r => ((k, j) :: r.1, r.2)
      else if c = '}' then some ([(k, j)], rest') else none := by
  rw [fields?, stringText, List.cons_append, skipSpace_cons rfl, List.append_assoc,
    List.singleton_append]
  simp only [name?_stringText, skipSpace_cons (show isSpace ':' = false from rfl), hj, hrest]
  split
  · next heq =>
    obtain ⟨rfl, rfl⟩ := List.cons.inj heq
    rfl
  · next heq =>
    obtain ⟨rfl, rfl⟩ := List.cons.inj heq
    rfl
  · next hcomma hbrace =>
    rw [if_neg fun hc => hcomma rest' (by rw [hc]), if_neg fun hc => hbrace rest' (by rw [hc])]

theorem fields?_gap {gap : List Char} (h : Blank gap) (fuel : Nat) (cs : List Char) :
    fields? fuel (gap ++ cs) = fields? fuel cs := by
  cases fuel with
  | zero => rfl
  | succ fuel => simp only [fields?, skipSpace_append h]

section RoundTrip

variable {sp : Spacing} (hsp : sp.IsBlank)
include hsp

theorem skipSpace_closed (d : Nat) {c : Char} (hc : isSpace c = false) (rest : List Char) :
    skipSpace (sp.closed d ++ c :: rest) = c :: rest := by
  rw [skipSpace_append (hsp.closed d), skipSpace_cons hc]

-- Each sign of a text pays for two turns, one of a value and one of the elements it stands among.
mutual

theorem value?_text : ∀ (j : Json), j.Textual → ∀ (d fuel : Nat) (rest : List Char),
    2 * (text sp d j).length + 2 ≤ fuel → value? fuel (text sp d j ++ rest) = some (j.paired, rest)
  | j, hj, d, 0, rest, h => by omega
  | .str t, hj, d, fuel + 1, rest, h => by
    rw [text, stringText, List.cons_append, List.append_assoc, value?_quote]
    simp only [List.singleton_append, string?_stringText]
    rfl
  | .arr [], hj, d, fuel + 1, rest, h => by
    rw [text, value?]
    rfl
  | .arr (j :: js), hj, d, fuel + 1, rest, h => by
    obtain ⟨hj, hjs⟩ := hj
    simp only [text, List.length_cons, List.length_append] at h
    obtain ⟨fuel, rfl⟩ := Nat.exists_eq_add_one_of_ne_zero (show fuel ≠ 0 by omega)
    obtain ⟨c, cs, hcons, hspace, hne⟩ := text_eq_cons sp (d + 1) hj
    have hvalue := value?_text j hj (d + 1) fuel
      (itemsText sp d js ++ (sp.closed d ++ ']' :: rest)) (by omega)
    have hitems := items?_itemsText js hjs d fuel j.paired _ rest hvalue (by omega)
    have hskip : skipSpace (sp.opened d ++ (text sp (d + 1) j ++
        (itemsText sp d js ++ (sp.closed d ++ ']' :: rest)))) =
          c :: (cs ++ (itemsText sp d js ++ (sp.closed d ++ ']' :: rest))) := by
      rw [skipSpace_append (hsp.opened d), hcons, List.cons_append, skipSpace_cons hspace]
    simp only [text, List.cons_append, List.append_assoc, List.nil_append]
    rw [value?_items hne hskip, ← List.cons_append, ← hcons, hitems]
    rfl
  | .obj [], hj, d, fuel + 1, rest, h => by
    rw [text, value?]
    rfl
  | .obj (f :: fs), hj, d, fuel + 1, rest, h => by
    obtain ⟨hj, hfs⟩ := hj
    simp only [text, List.length_cons, List.length_append] at h
    obtain ⟨fuel, rfl⟩ := Nat.exists_eq_add_one_of_ne_zero (show fuel ≠ 0 by omega)
    have hvalue := value?_text f.2 hj (d + 1) fuel
      (fieldsText sp d fs ++ (sp.closed d ++ '}' :: rest)) (by omega)
    have hfields := fields?_fieldsText fs hfs d fuel f.1 f.2.paired _ rest hvalue (by omega)
    have hskip (cs : List Char) : skipSpace (sp.opened d ++ (stringText f.1 ++ cs)) =
        '"' :: ((Text.ofString f.1).flatMap pointText ++ ['"'] ++ cs) := by
      rw [skipSpace_append (hsp.opened d), stringText, List.cons_append, skipSpace_cons rfl]
    have hquote (cs : List Char) :
        '"' :: ((Text.ofString f.1).flatMap pointText ++ ['"'] ++ cs) = stringText f.1 ++ cs := rfl
    simp only [text, List.cons_append, List.append_assoc, List.nil_append]
    rw [value?_fields (by decide) (hskip _), hquote, hfields]
    rfl

theorem items?_itemsText : ∀ (js : List Json), TextualItems js → ∀ (d fuel : Nat) (j : Json)
    (cs rest : List Char),
    value? fuel cs = some (j, itemsText sp d js ++ (sp.closed d ++ ']' :: rest)) →
    2 * (itemsText sp d js).length + 1 ≤ fuel →
    items? (fuel + 1) cs = some (j :: pairedItems js, rest)
  | [], hjs, d, fuel, j, cs, rest, hj, h => by
    rw [items?_eq hj (skipSpace_closed hsp d rfl rest)]
    rfl
  | j' :: js, hjs, d, fuel, j, cs, rest, hj, h => by
    obtain ⟨hj', hjs⟩ := hjs
    obtain ⟨gap, hgap, hblank⟩ := hsp.between d
    simp only [itemsText, hgap, List.length_cons, List.length_append] at h
    simp only [itemsText, hgap, List.cons_append, List.append_assoc] at hj
    obtain ⟨fuel, rfl⟩ := Nat.exists_eq_add_one_of_ne_zero (show fuel ≠ 0 by omega)
    have hvalue := value?_text j' hj' (d + 1) fuel
      (itemsText sp d js ++ (sp.closed d ++ ']' :: rest)) (by omega)
    rw [← value?_gap hblank] at hvalue
    rw [items?_eq hj (skipSpace_cons rfl _), if_pos rfl,
      items?_itemsText js hjs d fuel _ _ rest hvalue (by omega)]
    rfl

theorem fields?_fieldsText : ∀ (fs : List (String × Json)), TextualFields fs →
    ∀ (d fuel : Nat) (k : String) (j : Json) (cs rest : List Char),
    value? fuel cs = some (j, fieldsText sp d fs ++ (sp.closed d ++ '}' :: rest)) →
    2 * (fieldsText sp d fs).length + 1 ≤ fuel →
    fields? (fuel + 1) (stringText k ++ (sp.colon ++ cs)) =
      some ((k, j) :: pairedFields fs, rest)
  | [], hfs, d, fuel, k, j, cs, rest, hj, h => by
    obtain ⟨gap, hgap, hblank⟩ := hsp.colon
    rw [← value?_gap hblank] at hj
    rw [hgap, List.cons_append, fields?_eq hj (skipSpace_closed hsp d rfl rest)]
    rfl
  | f :: fs, hfs, d, fuel, k, j, cs, rest, hj, h => by
    obtain ⟨hj', hfs⟩ := hfs
    obtain ⟨gap, hgap, hblank⟩ := hsp.between d
    obtain ⟨gap', hgap', hblank'⟩ := hsp.colon
    simp only [fieldsText, hgap, List.length_cons, List.length_append] at h
    simp only [fieldsText, hgap, List.cons_append, List.append_assoc] at hj
    obtain ⟨fuel, rfl⟩ := Nat.exists_eq_add_one_of_ne_zero (show fuel ≠ 0 by omega)
    have hvalue := value?_text f.2 hj' (d + 1) fuel
      (fieldsText sp d fs ++ (sp.closed d ++ '}' :: rest)) (by omega)
    have hfields := fields?_fieldsText fs hfs d fuel f.1 _ _ rest hvalue (by omega)
    rw [← value?_gap hblank'] at hj
    rw [hgap', List.cons_append, fields?_eq hj (skipSpace_cons rfl _), if_pos rfl,
      fields?_gap hblank, hfields]
    rfl

end

/-- The text of a value, with space behind it, is read back. -/
theorem ofChars?_text {j : Json} (hj : j.Textual) {gap : List Char} (hgap : Blank gap) :
    ofChars? (text sp 0 j ++ gap) = some j.paired := by
  have hvalue := value?_text hsp j hj 0 (2 * (text sp 0 j ++ gap).length + 2) gap (by
    rw [List.length_append]
    omega)
  have hend : skipSpace gap = [] := by
    rw [← List.append_nil gap, skipSpace_append hgap]
    rfl
  simp only [ofChars?, hvalue, hend]
  rfl

/-! ### No escape character -/

omit hsp in
theorem escape_notMem_of_blank {gap : List Char} (h : Blank gap) : '\x1b' ∉ gap :=
  fun hmem => absurd (h _ hmem) (by decide)

theorem escape_notMem_spacing (d : Nat) :
    '\x1b' ∉ sp.opened d ∧ '\x1b' ∉ sp.between d ∧ '\x1b' ∉ sp.closed d ∧ '\x1b' ∉ sp.colon := by
  obtain ⟨gap, hgap, hblank⟩ := hsp.between d
  obtain ⟨gap', hgap', hblank'⟩ := hsp.colon
  refine ⟨escape_notMem_of_blank (hsp.opened d), ?_, escape_notMem_of_blank (hsp.closed d), ?_⟩
  · rw [hgap, List.mem_cons, not_or]
    exact ⟨by decide, escape_notMem_of_blank hblank⟩
  · rw [hgap', List.mem_cons, not_or]
    exact ⟨by decide, escape_notMem_of_blank hblank'⟩

mutual

theorem escape_notMem_text : ∀ (j : Json), j.Textual → ∀ d, '\x1b' ∉ text sp d j
  | .str t, hj, d => escape_notMem_stringText t
  | .arr [], hj, d => by
    rw [text]
    decide
  | .arr (j :: js), hj, d => by
    obtain ⟨hopened, -, hclosed, -⟩ := escape_notMem_spacing hsp d
    simp [text, hopened, hclosed, escape_notMem_text j hj.1 (d + 1),
      escape_notMem_itemsText js hj.2 d]
  | .obj [], hj, d => by
    rw [text]
    decide
  | .obj (f :: fs), hj, d => by
    obtain ⟨hopened, -, hclosed, hcolon⟩ := escape_notMem_spacing hsp d
    simp [text, hopened, hclosed, hcolon, escape_notMem_stringText,
      escape_notMem_text f.2 hj.1 (d + 1), escape_notMem_fieldsText fs hj.2 d]

theorem escape_notMem_itemsText : ∀ (js : List Json), TextualItems js →
    ∀ d, '\x1b' ∉ itemsText sp d js
  | [], hjs, d => List.not_mem_nil
  | j :: js, hjs, d => by
    obtain ⟨-, hbetween, -, -⟩ := escape_notMem_spacing hsp d
    simp [itemsText, hbetween, escape_notMem_text j hjs.1 (d + 1),
      escape_notMem_itemsText js hjs.2 d]

theorem escape_notMem_fieldsText : ∀ (fs : List (String × Json)), TextualFields fs →
    ∀ d, '\x1b' ∉ fieldsText sp d fs
  | [], hfs, d => List.not_mem_nil
  | f :: fs, hfs, d => by
    obtain ⟨-, hbetween, -, hcolon⟩ := escape_notMem_spacing hsp d
    simp [fieldsText, hbetween, hcolon, escape_notMem_stringText,
      escape_notMem_text f.2 hfs.1 (d + 1), escape_notMem_fieldsText fs hfs.2 d]

end

end RoundTrip

end Json

end AuthMap
