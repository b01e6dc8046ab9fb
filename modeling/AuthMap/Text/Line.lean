/-! Lines of a text, by every character that may end one. -/

namespace AuthMap.Text

/-- Line feed, carriage return, the tabulators down the page, the information separators but the
last, and the separators of lines and paragraphs. -/
def endsLine (c : Char) : Bool :=
  let n := c.toNat
  (0x0A ≤ n && n ≤ 0x0D) || (0x1C ≤ n && n ≤ 0x1E) || n == 0x85 || n == 0x2028 || n == 0x2029

/-- How many lines end in a text; a carriage return and a line feed end one together. -/
def lineEnds : List Char → Nat
  | [] => 0
  | '\r' :: '\n' :: cs => lineEnds cs + 1
  | c :: cs => (if endsLine c then 1 else 0) + lineEnds cs

end AuthMap.Text
