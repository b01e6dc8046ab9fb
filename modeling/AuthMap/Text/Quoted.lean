import AuthMap.Text.CodePoint
import AuthMap.Text.Printable

/-! Text in quotes, as messages show it: single quotes unless only they occur in the text, and
escapes for whatever would not print. -/

namespace AuthMap.Text

def hexDigit (n : Nat) : Char :=
  if n < 10 then Char.ofNat (0x30 + n) else Char.ofNat (0x61 + (n - 10))

def hex : Nat → Nat → List Char
  | 0, _ => []
  | width + 1, n => hex width (n / 16) ++ [hexDigit (n % 16)]

def hexFrom (least n : Nat) : List Char :=
  let digits := Nat.toDigits 16 n
  List.replicate (least - digits.length) '0' ++ digits

def hexEscape (n : Nat) : List Char :=
  if n < 0x100 then '\\' :: 'x' :: hex 2 n
  else if n < 0x10000 then '\\' :: 'u' :: hex 4 n
  else '\\' :: 'U' :: hex 8 n

/-- The quotation mark for a text: double only where single ones occur and no double one does. -/
def quoteFor (cs : List Char) : Char :=
  if cs.contains '\'' && !cs.contains '"' then '"' else '\''

def quotedChar (quote c : Char) : List Char :=
  if c = quote || c = '\\' then ['\\', c]
  else if c = '\n' then ['\\', 'n']
  else if c = '\r' then ['\\', 'r']
  else if c = '\t' then ['\\', 't']
  else if isPrintable c then [c]
  else hexEscape c.toNat

def quotedPoint (quote : Char) : CodePoint → List Char
  | .char c => quotedChar quote c
  | .half i => hexEscape (CodePoint.half i).toNat

def quoted (t : Text) : String :=
  let quote := quoteFor (t.filterMap CodePoint.char?)
  String.ofList (quote :: (t.flatMap (quotedPoint quote) ++ [quote]))

def quotedByte (quote : Char) (b : UInt8) : List Char :=
  let c := Char.ofNat b.toNat
  if b < 0x80 then
    if isPrintable c || c = '\n' || c = '\r' || c = '\t' then quotedChar quote c
    else '\\' :: 'x' :: hex 2 b.toNat
  else '\\' :: 'x' :: hex 2 b.toNat

def quotedBytes (bs : List UInt8) : String :=
  let quote := quoteFor (bs.map fun b => Char.ofNat b.toNat)
  String.ofList ('b' :: quote :: (bs.flatMap (quotedByte quote) ++ [quote]))

end AuthMap.Text
