/-! Text made of code points. An escape may name one half of a surrogate pair, which is a code
point and no character; a text without halves is whole. -/

namespace AuthMap

inductive Text.CodePoint where
  | char (c : Char)
  /-- A half, by its distance from the first of them. -/
  | half (i : Fin 0x800)
  deriving DecidableEq, Repr, Inhabited

abbrev Text := List Text.CodePoint

namespace Text

namespace CodePoint

/-- The code point of a number; numbers of none give the null character. -/
def ofNat (n : Nat) : CodePoint :=
  if h : 0xD800 ≤ n ∧ n < 0xE000 then .half ⟨n - 0xD800, by omega⟩ else .char (Char.ofNat n)

def toNat : CodePoint → Nat
  | .char c => c.toNat
  | .half i => 0xD800 + i

instance : LT CodePoint := ⟨fun p q => p.toNat < q.toNat⟩

instance (p q : CodePoint) : Decidable (p < q) := inferInstanceAs (Decidable (p.toNat < q.toNat))

def isChar : CodePoint → Bool
  | .char _ => true
  | .half _ => false

def char? : CodePoint → Option Char
  | .char c => some c
  | .half _ => none

end CodePoint

def ofChars (cs : List Char) : Text := cs.map .char

def ofString (s : String) : Text := ofChars s.toList

instance : Coe String Text := ⟨ofString⟩

def chars? (t : Text) : Option (List Char) := t.mapM CodePoint.char?

def string? (t : Text) : Option String := t.chars?.map String.ofList

def leadingChars (t : Text) : List Char := (t.takeWhile CodePoint.isChar).filterMap CodePoint.char?

theorem chars?_ofChars (cs : List Char) : chars? (ofChars cs) = some cs := by
  induction cs with
  | nil => rfl
  | cons c cs ih =>
    simp only [chars?, ofChars, List.map_cons, List.mapM_cons] at ih ⊢
    simp [ih, CodePoint.char?]

theorem string?_ofString (s : String) : string? (ofString s) = some s := by
  simp [string?, ofString, chars?_ofChars]

theorem ofString_injective {s s' : String} (h : ofString s = ofString s') : s = s' := by
  have hs := congrArg string? h
  rw [string?_ofString, string?_ofString] at hs
  exact Option.some.inj hs

theorem ofString_append (s s' : String) : ofString (s ++ s') = ofString s ++ ofString s' := by
  simp [ofString, ofChars, String.toList_append]

theorem ofChars_of_chars? {t : Text} {cs : List Char} (h : t.chars? = some cs) :
    t = ofChars cs := by
  induction t generalizing cs with
  | nil =>
    obtain rfl : cs = [] := by simpa [chars?] using h.symm
    rfl
  | cons p t ih =>
    cases p with
    | half i => simp [chars?, CodePoint.char?] at h
    | char c =>
      obtain ⟨cs', hcs', rfl⟩ : ∃ cs', chars? t = some cs' ∧ c :: cs' = cs := by
        simpa [chars?, CodePoint.char?, Option.bind_eq_some_iff] using h
      rw [ih hcs']
      rfl

theorem ofString_of_string? {t : Text} {s : String} (h : t.string? = some s) : t = ofString s := by
  obtain ⟨cs, hcs, rfl⟩ := Option.map_eq_some_iff.mp h
  rw [ofChars_of_chars? hcs, ofString, String.toList_ofList]

/-- The text as characters: a high half and a low one behind it make one, and any other half is
replaced. -/
def joined : Text → List Char
  | .half i :: .half j :: t =>
    if i.val < 0x400 && 0x400 ≤ j.val then
      Char.ofNat (0x10000 + i * 0x400 + (j - 0x400)) :: joined t
    else '\ufffd' :: joined (.half j :: t)
  | .half _ :: t => '\ufffd' :: joined t
  | .char c :: t => c :: joined t
  | [] => []

def shown (t : Text) : String := String.ofList t.joined

end Text

end AuthMap
