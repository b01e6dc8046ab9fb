import AuthMap.Text.CodePoint
import AuthMap.Text.Replace

/-! Control sequences, by which a text asks a terminal for colours and the like. Where there is no
terminal they are left out. -/

namespace AuthMap.Text

def isParameter (p : CodePoint) : Bool := 0x30 ≤ p.toNat && p.toNat ≤ 0x3F

def isIntermediate (p : CodePoint) : Bool := 0x20 ≤ p.toNat && p.toNat ≤ 0x2F

def isFinal (p : CodePoint) : Bool := 0x40 ≤ p.toNat && p.toNat ≤ 0x7E

/-- A control sequence at this place, with nothing to put there: an escape and a bracket, then
parameters, then intermediate characters, and a final one. -/
def control? : Text → Option (Nat × Text)
  | .char '\x1b' :: .char '[' :: t =>
    let rest := (t.dropWhile isParameter).dropWhile isIntermediate
    if rest.head?.any isFinal then some (t.length - rest.length + 3, []) else none
  | _ => none

/-- A text without control sequences; what is left may come to look like one. -/
def uncontrolled (t : Text) : Text := replaceFrom control? 0 t

end AuthMap.Text
