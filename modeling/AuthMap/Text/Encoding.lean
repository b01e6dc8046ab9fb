import AuthMap.Text.Quoted

/-! Texts as they are written out. A half is no character and has no bytes, but for the halves that
stand for single bytes, by which names that are no text are kept. -/

namespace AuthMap.Text

/-- Stands for a byte that was found where a text was to be read. -/
def CodePoint.isByte : CodePoint → Bool
  | .char _ => false
  | .half i => 0x480 ≤ i.val && i.val < 0x500

def unencodable (start : Nat) (p : CodePoint) (more : Nat) : String :=
  let which :=
    if more = 0 then "character '" ++ String.ofList (hexEscape p.toNat) ++ "' in position "
    else "characters in position "
  let last := if more = 0 then "" else "-" ++ toString (start + more)
  "'utf-8' codec can't encode " ++ which ++ toString start ++ last ++ ": surrogates not allowed"

/-- Why a text cannot be written out: the first code point that has no bytes, with the halves right
behind it. The count is of the code points in front of the text. -/
def encodeFaultFrom (hasBytes : CodePoint → Bool) : Nat → Text → Option String
  | _, [] => none
  | start, p :: t =>
    if hasBytes p then encodeFaultFrom hasBytes (start + 1) t
    else some (unencodable start p (t.takeWhile fun q => !q.isChar).length)

def encodeFault? (t : Text) : Option String := encodeFaultFrom CodePoint.isChar 0 t

/-- Why a text is no name for the system, where bytes are kept. -/
def nameFault? (t : Text) : Option String :=
  encodeFaultFrom (fun p => p.isChar || p.isByte) 0 t

/-- The text with its halves as escapes. -/
def escaped (t : Text) : String :=
  String.ofList (t.flatMap fun p =>
    match p with
    | .char c => [c]
    | .half i => hexEscape (CodePoint.half i).toNat)

end AuthMap.Text
