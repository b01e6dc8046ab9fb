import AuthMap.Json.Basic
import AuthMap.Decimal.Shortest
import AuthMap.Text.Quoted

/-! JSON as text in ASCII: on one line, or with one element on each line. Characters beyond the
basic plane are written as a pair of escapes. -/

namespace AuthMap.Json

def unitEscape (n : Nat) : List Char := '\\' :: 'u' :: Text.hex 4 n

def charText (c : Char) : List Char :=
  if c = '"' then ['\\', '"']
  else if c = '\\' then ['\\', '\\']
  else if c = '\n' then ['\\', 'n']
  else if c = '\r' then ['\\', 'r']
  else if c = '\t' then ['\\', 't']
  else if c = '\x08' then ['\\', 'b']
  else if c = '\x0c' then ['\\', 'f']
  else if 0x20 ≤ c.toNat && c.toNat < 0x7F then [c]
  else if c.toNat < 0x10000 then unitEscape c.toNat
  else
    let n := c.toNat - 0x10000
    unitEscape (0xD800 + n / 0x400) ++ unitEscape (0xDC00 + n % 0x400)

def pointText : Text.CodePoint → List Char
  | .char c => charText c
  | .half i => unitEscape (Text.CodePoint.half i).toNat

def stringText (t : Text) : List Char := '"' :: (t.flatMap pointText ++ ['"'])

def realText (x : Float) : String :=
  match Decimal.parts x with
  | .undefined => "NaN"
  | .infinite negative => if negative then "-Infinity" else "Infinity"
  | .finite _ => Decimal.render x

/-- How elements are set apart: the text before the first and between two, at a depth, and the
text before the closing bracket. -/
structure Spacing where
  opened : Nat → List Char
  between : Nat → List Char
  closed : Nat → List Char
  colon : List Char

def line (depth : Nat) : List Char := '\n' :: List.replicate (2 * depth) ' '

def tight : Spacing := ⟨fun _ => [], fun _ => [','], fun _ => [], [':']⟩

def spread : Spacing :=
  ⟨fun d => line (d + 1), fun d => ',' :: line (d + 1), line, [':', ' ']⟩

mutual

def text (sp : Spacing) (depth : Nat) : Json → List Char
  | .null => "null".toList
  | .bool b => if b then "true".toList else "false".toList
  | .int n => (toString n).toList
  | .real x => (realText x).toList
  | .str t => stringText t
  | .arr [] => ['[', ']']
  | .arr (j :: js) =>
    '[' :: (sp.opened depth ++ text sp (depth + 1) j ++ itemsText sp depth js ++
      sp.closed depth ++ [']'])
  | .obj [] => ['{', '}']
  | .obj ((k, j) :: fs) =>
    '{' :: (sp.opened depth ++ stringText k ++ sp.colon ++ text sp (depth + 1) j ++
      fieldsText sp depth fs ++ sp.closed depth ++ ['}'])

def itemsText (sp : Spacing) (depth : Nat) : List Json → List Char
  | [] => []
  | j :: js => sp.between depth ++ text sp (depth + 1) j ++ itemsText sp depth js

def fieldsText (sp : Spacing) (depth : Nat) : List (String × Json) → List Char
  | [] => []
  | (k, j) :: fs =>
    sp.between depth ++ stringText k ++ sp.colon ++ text sp (depth + 1) j ++
      fieldsText sp depth fs

end

def compact (j : Json) : String := String.ofList (text tight 0 j)

def pretty (j : Json) : String := String.ofList (text spread 0 j)

end AuthMap.Json
