import AuthMap.Text.Quoted
import AuthMap.Yaml.Printer.Style

/-!
YAML text in block style: a list of texts, or a list of records whose fields are texts or lists
of texts. A scalar that runs past the width of a line is folded, at a single space or, in double
quotes, after an escape too.
-/

namespace AuthMap.Yaml

open Text (CodePoint)

def lineWidth : Nat := 80

def newLine (indent : Nat) : List Char := '\n' :: List.replicate indent ' '

/-- The text of a plain scalar from a column on. Single spaces past the width become line
breaks. -/
def plainFrom (indent : Nat) : Bool → Nat → List Char → List Char
  | _, _, [] => []
  | spaced, column, c :: cs =>
    if c = ' ' then
      if !spaced && cs.head? ≠ some ' ' && lineWidth < column then
        newLine indent ++ plainFrom indent true indent cs
      else c :: plainFrom indent true (column + 1) cs
    else c :: plainFrom indent false (column + 1) cs

/-- The text inside single quotes from a column on; `after` is the character before. -/
def singleFrom (indent : Nat) : Option Char → Nat → List Char → List Char
  | _, _, [] => []
  | after, column, c :: cs =>
    if c = ' ' then
      if after.any (· ≠ ' ') && cs.head?.any (· ≠ ' ') && lineWidth < column then
        newLine indent ++ singleFrom indent (some c) indent cs
      else c :: singleFrom indent (some c) (column + 1) cs
    else if c = '\n' then
      -- a run of line breaks is written with one more of them
      (if after = some '\n' then [] else ['\n']) ++
        (if cs.head? = some '\n' then '\n' :: singleFrom indent (some c) column cs
         else newLine indent ++ singleFrom indent (some c) indent cs)
    else if c = '\'' then '\'' :: '\'' :: singleFrom indent (some c) (column + 2) cs
    else c :: singleFrom indent (some c) (column + 1) cs

def escapeLetter? (c : Char) : Option Char :=
  if c = '\x00' then some '0'
  else if c = '\x07' then some 'a'
  else if c = '\x08' then some 'b'
  else if c = '\x09' then some 't'
  else if c = '\x0A' then some 'n'
  else if c = '\x0B' then some 'v'
  else if c = '\x0C' then some 'f'
  else if c = '\x0D' then some 'r'
  else if c = '\x1B' then some 'e'
  else if c = '"' then some '"'
  else if c = '\\' then some '\\'
  else if c = '\u0085' then some 'N'
  else if c = '\u00A0' then some '_'
  else if c = '\u2028' then some 'L'
  else if c = '\u2029' then some 'P'
  else none

def upperHex (width n : Nat) : List Char := (Text.hex width n).map Char.toUpper

def numberEscape (n : Nat) : List Char :=
  if n ≤ 0xFF then '\\' :: 'x' :: upperHex 2 n
  else if n ≤ 0xFFFF then '\\' :: 'u' :: upperHex 4 n
  else '\\' :: 'U' :: upperHex 8 n

def inDoubleQuotes : CodePoint → Char ⊕ List Char
  | .half i => .inr (numberEscape (CodePoint.half i).toNat)
  | .char c =>
    match escapeLetter? c with
    | some e => .inr ['\\', e]
    | none => if 0x20 ≤ c.toNat && c.toNat ≤ 0x7E then .inl c else .inr (numberEscape c.toNat)

/-- An escaped line break; a space after it is marked as part of the text. -/
def escapedBreak (indent : Nat) (next : Option CodePoint) : List Char :=
  '\\' :: newLine indent ++ if next = some (.char ' ') then ['\\'] else []

def columnAfterBreak (indent : Nat) (next : Option CodePoint) : Nat :=
  if next = some (.char ' ') then indent + 1 else indent

/-- The text inside double quotes from a column on. -/
def doubleFrom (indent : Nat) (first fresh : Bool) (column : Nat) : Text → List Char
  | [] => []
  | p :: t =>
    -- a line ends neither before the first character nor after the last but one
    let inner := !first && !t.isEmpty
    match inDoubleQuotes p with
    | .inr e =>
      let column := column + e.length
      if inner && lineWidth + 1 < column then
        e ++ escapedBreak indent t.head? ++
          doubleFrom indent false true (columnAfterBreak indent t.head?) t
      else e ++ doubleFrom indent false true column t
    | .inl c =>
      if inner && (c = ' ' || fresh) && lineWidth < column then
        escapedBreak indent (some p) ++
          c :: doubleFrom indent false false (columnAfterBreak indent (some p) + 1) t
      else c :: doubleFrom indent false false (column + 1) t

def doubleText (indent column : Nat) (t : Text) : List Char :=
  '"' :: (doubleFrom indent true true (column + 1) t ++ ['"'])

/-- A scalar that starts at a column, with the indentation of further lines. Halves need double
quotes. -/
def scalarText (indent column : Nat) (t : Text) : List Char :=
  match t.chars? with
  | none => doubleText indent column t
  | some cs =>
    match Style.of cs with
    | .plain => plainFrom indent false column cs
    | .single => '\'' :: (singleFrom indent none (column + 1) cs ++ ['\''])
    | .double => doubleText indent column t

/-! ### Collections -/

inductive Field where
  | text (t : Text)
  | texts (ts : List Text)
  deriving DecidableEq, Repr

def fieldItems (ts : List Text) : List Char :=
  ts.flatMap fun t => "  - ".toList ++ scalarText 4 4 t ++ ['\n']

def fieldText (key : String) : Field → List Char
  | .text t => key.toList ++ ": ".toList ++ scalarText 4 (key.length + 4) t ++ ['\n']
  | .texts [] => key.toList ++ ": []\n".toList
  | .texts ts => key.toList ++ ":\n".toList ++ fieldItems ts

def recordText : List (String × Field) → List Char
  | [] => "- \x7b\x7d\n".toList
  | (k, f) :: fs =>
    "- ".toList ++ fieldText k f ++ fs.flatMap fun kf => "  ".toList ++ fieldText kf.1 kf.2

def printRecords (rs : List (List (String × Field))) : String :=
  if rs.isEmpty then "[]\n" else String.ofList (rs.flatMap recordText)

def printTexts (ts : List Text) : String :=
  if ts.isEmpty then "[]\n"
  else String.ofList (ts.flatMap fun t => "- ".toList ++ scalarText 2 2 t ++ ['\n'])

end AuthMap.Yaml
