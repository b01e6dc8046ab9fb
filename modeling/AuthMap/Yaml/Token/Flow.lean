import AuthMap.Yaml.Token
import AuthMap.Yaml.Token.Plain
import AuthMap.Decimal.Reading

/-! Scalars in single or double quotation marks. -/

namespace AuthMap.Yaml

open Text (CodePoint)

def letterEscape? : Char → Option Char
  | '0' => some '\x00'
  | 'a' => some '\x07'
  | 'b' => some '\x08'
  | 't' => some '\t'
  | '\t' => some '\t'
  | 'n' => some '\n'
  | 'v' => some '\x0b'
  | 'f' => some '\x0c'
  | 'r' => some '\r'
  | 'e' => some '\x1b'
  | ' ' => some ' '
  | '"' => some '"'
  | '\\' => some '\\'
  | '/' => some '/'
  | 'N' => some '\u0085'
  | '_' => some '\u00a0'
  | 'L' => some '\u2028'
  | 'P' => some '\u2029'
  | _ => none

def hexWidth? : Char → Option Nat
  | 'x' => some 2
  | 'u' => some 4
  | 'U' => some 8
  | _ => none

def hexPoint (digits : List Char) : Except Fault CodePoint :=
  match Decimal.natural? 16 digits with
  | none => .error .malformed
  | some n =>
    if 0x80000000 ≤ n then .error (.value .hugeCharacter)
    else if 0x110000 ≤ n then .error (.value .noCharacter)
    else .ok (CodePoint.ofNat n)

def isQuotedRun (ch : Char) : Bool :=
  ch ≠ '\'' && ch ≠ '"' && ch ≠ '\\' && !endsWord (some ch)

def quotedBreaks : Nat → Cursor → Except Fault (List Char × Cursor)
  | 0, _ => .error .malformed
  | fuel + 1, c =>
    if c.atSeparator then .error .malformed
    else
      let c := c.skip fun ch => ch = ' ' || ch = '\t'
      match c.break? with
      | none => .ok ([], c)
      | some (b, c) => do
        let (bs, c) ← quotedBreaks fuel c
        pure (b :: bs, c)

/-- What an escape stands for, and the place after it. -/
def escapeAt (c : Cursor) : Except Fault (Text × Cursor) :=
  let c := c.step
  match c.rest with
  | [] => .error .malformed
  | ch :: rest =>
    match letterEscape? ch, hexWidth? ch with
    | some e, _ => .ok ([.char e], c.step)
    | none, some width =>
      let digits := rest.take width
      if digits.length = width && digits.all isHexDigit then
        (hexPoint digits).map fun p => ([p], c.steps (width + 1))
      else .error .malformed
    | none, none =>
      -- an escaped line break joins two lines
      match c.break? with
      | none => .error .malformed
      | some (_, c) =>
        (quotedBreaks (c.rest.length + 1) c).map fun r => (Text.ofChars r.1, r.2)

/-- What a mark or an escape stands for, and the place after it; nothing where a word ends. -/
def quotedPiece (double : Bool) (c : Cursor) : Except Fault (Option (Text × Cursor)) :=
  match c.rest with
  | '\'' :: rest =>
    if double then .ok (some ([.char '\''], c.step))
    else if rest.head? = some '\'' then .ok (some ([.char '\''], c.steps 2))
    else .ok none
  | '"' :: _ => .ok (if double then none else some ([.char '"'], c.step))
  | '\\' :: _ =>
    if double then (escapeAt c).map some else .ok (some ([.char '\\'], c.step))
  | _ => .ok none

def quotedWord (double : Bool) : Nat → Cursor → Except Fault (Text × Cursor)
  | 0, _ => .error .malformed
  | fuel + 1, c => do
    let run := c.run isQuotedRun
    let c := c.steps run.length
    match ← quotedPiece double c with
    | none => pure (Text.ofChars run, c)
    | some (piece, c) =>
      let (text, c) ← quotedWord double fuel c
      pure (Text.ofChars run ++ piece ++ text, c)

def quotedGap (c : Cursor) : Except Fault (List Char × Cursor) := do
  let isBlank (ch : Char) : Bool := ch = ' ' || ch = '\t'
  let blanks := c.run isBlank
  let c := c.skip isBlank
  if c.rest.isEmpty then .error .malformed
  else match c.break? with
    | none => pure (blanks, c)
    | some (first, c) =>
      let (others, c) ← quotedBreaks (c.rest.length + 1) c
      pure (foldBreak first others, c)

def quotedText (double : Bool) : Nat → Cursor → Except Fault (Text × Cursor)
  | 0, _ => .error .malformed
  | fuel + 1, c => do
    let (word, c) ← quotedWord double (c.rest.length + 1) c
    if c.peek = some (if double then '"' else '\'') then pure (word, c.step)
    else
      let (gap, c) ← quotedGap c
      let (text, c) ← quotedText double fuel c
      pure (word ++ Text.ofChars gap ++ text, c)

def quotedScalar (double : Bool) (c : Cursor) : Except Fault (Text × Cursor) :=
  quotedText double (c.rest.length + 1) c.step

end AuthMap.Yaml
