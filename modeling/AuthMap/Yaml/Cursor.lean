import AuthMap.Yaml.Char

/-! A place in a text: what is left of it, and how far it is from the start, in characters and in
lines and columns. -/

namespace AuthMap.Yaml

structure Cursor where
  rest : List Char
  index : Nat := 0
  line : Nat := 0
  column : Nat := 0

namespace Cursor

def ofChars (cs : List Char) : Cursor := { rest := cs }

def peek (c : Cursor) : Option Char := c.rest.head?

def peekAt (c : Cursor) (k : Nat) : Option Char := c.rest[k]?

def step (c : Cursor) : Cursor :=
  match c.rest with
  | [] => c
  | ch :: rest =>
    -- a carriage return before a line feed does not end its line
    if isBreak ch && !(ch = '\r' && rest.head? = some '\n') then
      ⟨rest, c.index + 1, c.line + 1, 0⟩
    else if ch = byteOrderMark then ⟨rest, c.index + 1, c.line, c.column⟩
    else ⟨rest, c.index + 1, c.line, c.column + 1⟩

def steps : Nat → Cursor → Cursor
  | 0, c => c
  | n + 1, c => steps n c.step

def run (p : Char → Bool) (c : Cursor) : List Char := c.rest.takeWhile p

def skip (p : Char → Bool) (c : Cursor) : Cursor := c.steps (c.run p).length

def skipSpaces (c : Cursor) : Cursor := c.skip (· = ' ')

/-- Passes a line break; every form of it but the two separators counts as a line feed. -/
def break? (c : Cursor) : Option (Char × Cursor) :=
  match c.rest with
  | '\r' :: '\n' :: _ => some ('\n', c.steps 2)
  | ch :: _ =>
    if ch = '\r' || ch = '\n' || ch = '\u0085' then some ('\n', c.step)
    else if ch = '\u2028' || ch = '\u2029' then some (ch, c.step)
    else none
  | [] => none

def atSeparator (c : Cursor) : Bool :=
  match c.rest with
  | '-' :: '-' :: '-' :: rest => endsWord rest.head?
  | '.' :: '.' :: '.' :: rest => endsWord rest.head?
  | _ => false

def skipComment (c : Cursor) : Cursor :=
  let c := c.skipSpaces
  if c.peek = some '#' then c.skip (fun ch => !isBreak ch) else c

end Cursor

end AuthMap.Yaml
