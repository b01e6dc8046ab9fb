import AuthMap.Json.Basic
import AuthMap.Decimal.Reading

/-! JSON read from text, with words for the floats that have no digits. -/

namespace AuthMap.Json

open Text (CodePoint)

def isSpace (c : Char) : Bool := c = ' ' || c = '\t' || c = '\n' || c = '\r'

def skipSpace (cs : List Char) : List Char := cs.dropWhile isSpace

def unit? : List Char → Option (Nat × List Char)
  | a :: b :: c :: d :: rest => (Decimal.natural? 16 [a, b, c, d]).map (·, rest)
  | _ => none

def escaped? (cs : List Char) : Option (CodePoint × List Char) :=
  match unit? cs with
  | none => none
  | some (hi, rest) =>
    match rest with
    | '\\' :: 'u' :: more =>
      -- a high half takes a low one behind it along
      if 0xD800 ≤ hi && hi < 0xDC00 then
        match unit? more with
        | some (lo, rest') =>
          if 0xDC00 ≤ lo && lo < 0xE000 then
            some (.ofNat (0x10000 + (hi - 0xD800) * 0x400 + (lo - 0xDC00)), rest')
          else some (.ofNat hi, rest)
        | none => none
      else some (.ofNat hi, rest)
    | _ => some (.ofNat hi, rest)

def simpleEscape? : Char → Option Char
  | '"' => some '"'
  | '\\' => some '\\'
  | '/' => some '/'
  | 'b' => some '\x08'
  | 'f' => some '\x0c'
  | 'n' => some '\n'
  | 'r' => some '\r'
  | 't' => some '\t'
  | _ => none

def stringBody : Nat → List Char → Option (Text × List Char)
  | 0, _ => none
  | _ + 1, [] => none
  | _ + 1, '"' :: rest => some ([], rest)
  | fuel + 1, '\\' :: 'u' :: rest =>
    match escaped? rest with
    | some (p, rest') => (stringBody fuel rest').map fun r => (p :: r.1, r.2)
    | none => none
  | fuel + 1, '\\' :: c :: rest =>
    match simpleEscape? c with
    | some e => (stringBody fuel rest).map fun r => (.char e :: r.1, r.2)
    | none => none
  | fuel + 1, c :: rest => (stringBody fuel rest).map fun r => (.char c :: r.1, r.2)

def string? (cs : List Char) : Option (Text × List Char) := stringBody (cs.length + 1) cs

def name? (cs : List Char) : Option (String × List Char) := do
  let (t, rest) ← string? cs
  pure (← t.string?, rest)

def isNumberChar (c : Char) : Bool :=
  c.isDigit || c = '-' || c = '+' || c = '.' || c = 'e' || c = 'E'

def number? (cs : List Char) : Option Json :=
  if cs.all fun c => c.isDigit || c = '-' then (Decimal.integer? 10 cs).map .int
  else (Decimal.float? cs).map .real

mutual

def value? : Nat → List Char → Option (Json × List Char)
  | 0, _ => none
  | fuel + 1, cs =>
    match skipSpace cs with
    | 'n' :: 'u' :: 'l' :: 'l' :: rest => some (.null, rest)
    | 't' :: 'r' :: 'u' :: 'e' :: rest => some (.bool true, rest)
    | 'f' :: 'a' :: 'l' :: 's' :: 'e' :: rest => some (.bool false, rest)
    | 'N' :: 'a' :: 'N' :: rest => some (.real (0 / 0), rest)
    | 'I' :: 'n' :: 'f' :: 'i' :: 'n' :: 'i' :: 't' :: 'y' :: rest => some (.real (1 / 0), rest)
    | '-' :: 'I' :: 'n' :: 'f' :: 'i' :: 'n' :: 'i' :: 't' :: 'y' :: rest =>
      some (.real (-1 / 0), rest)
    | '"' :: rest => (string? rest).map fun r => (.str r.1, r.2)
    | '[' :: rest =>
      match skipSpace rest with
      | ']' :: rest' => some (.arr [], rest')
      | rest' => (items? fuel rest').map fun r => (.arr r.1, r.2)
    | '{' :: rest =>
      match skipSpace rest with
      | '}' :: rest' => some (.obj [], rest')
      | rest' => (fields? fuel rest').map fun r => (.obj r.1, r.2)
    | rest =>
      (number? (rest.takeWhile isNumberChar)).map fun j => (j, rest.dropWhile isNumberChar)

def items? : Nat → List Char → Option (List Json × List Char)
  | 0, _ => none
  | fuel + 1, cs =>
    match value? fuel cs with
    | none => none
    | some (j, rest) =>
      match skipSpace rest with
      | ',' :: rest' => (items? fuel rest').map fun r => (j :: r.1, r.2)
      | ']' :: rest' => some ([j], rest')
      | _ => none

def fields? : Nat → List Char → Option (List (String × Json) × List Char)
  | 0, _ => none
  | fuel + 1, cs =>
    match skipSpace cs with
    | '"' :: rest =>
      match name? rest with
      | none => none
      | some (k, rest) =>
        match skipSpace rest with
        | ':' :: rest =>
          match value? fuel rest with
          | none => none
          | some (j, rest) =>
            match skipSpace rest with
            | ',' :: rest' => (fields? fuel rest').map fun r => ((k, j) :: r.1, r.2)
            | '}' :: rest' => some ([(k, j)], rest')
            | _ => none
        | _ => none
    | _ => none

end

def ofChars? (cs : List Char) : Option Json :=
  match value? (2 * cs.length + 2) cs with
  | some (j, rest) => if (skipSpace rest).isEmpty then some j else none
  | none => none

def ofString? (s : String) : Option Json := ofChars? s.toList

end AuthMap.Json
