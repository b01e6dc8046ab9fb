import AuthMap.Text.CodePoint

/-! Blank characters, and text without its blank ends. -/

namespace AuthMap.Text

/-- White space of any script, with the four information separators. -/
def isBlank (c : Char) : Bool :=
  let n := c.toNat
  (0x09 ≤ n && n ≤ 0x0D) || (0x1C ≤ n && n ≤ 0x20) || n == 0x85 || n == 0xA0 || n == 0x1680 ||
    (0x2000 ≤ n && n ≤ 0x200A) || n == 0x2028 || n == 0x2029 || n == 0x202F || n == 0x205F ||
    n == 0x3000

def CodePoint.isBlank : CodePoint → Bool
  | .char c => Text.isBlank c
  | .half _ => false

def trimOf (p : α → Bool) (xs : List α) : List α :=
  ((xs.dropWhile p).reverse.dropWhile p).reverse

def trim (cs : List Char) : List Char := trimOf isBlank cs

def trimmed (s : String) : String := String.ofList (trim s.toList)

def stripped (t : Text) : Text := trimOf CodePoint.isBlank t

end AuthMap.Text
