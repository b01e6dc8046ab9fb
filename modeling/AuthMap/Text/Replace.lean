/-! Replacing what a test finds in a text, from left to right. -/

namespace AuthMap.Text

/-- Replaces what a test finds at a place, and goes on behind it. The test gives the length of
what it found and the text to put there; the count is of characters still to pass over. -/
def replaceFrom (find : List α → Option (Nat × List α)) : Nat → List α → List α
  | _, [] => []
  | skip + 1, _ :: cs => replaceFrom find skip cs
  | 0, c :: cs =>
    match find (c :: cs) with
    | some (length, text) => text ++ replaceFrom find (length - 1) cs
    | none => c :: replaceFrom find 0 cs

end AuthMap.Text
