import AuthMap.Yaml.Token.Plain
import AuthMap.Yaml.Token.Flow
import AuthMap.Yaml.Token.Block
import AuthMap.Yaml.Token.Name

/-!
Text cut into tokens. The lexer keeps the indentation of the open block collections, the depth of
flow collections, and for each depth the place of a token that a colon may turn into a mapping
key: the key's token, and the start of a mapping where it is the first, are then put in before it.
-/

namespace AuthMap.Yaml

/-- A token that may turn out to be a key: how many tokens came before it, where it began, and
whether only a key can stand there. -/
structure Candidate where
  number : Nat
  index : Nat
  line : Nat
  column : Nat
  required : Bool
  deriving DecidableEq, Repr

structure Lexer where
  cursor : Cursor
  /-- Column of the innermost block collection, and of those around it. -/
  indent : Int := -1
  outer : List Int := []
  flow : Nat := 0
  /-- Whether a key may begin here. -/
  keyAllowed : Bool := true
  /-- The candidates of this depth and of the depths around it. -/
  candidate : Option Candidate := none
  around : List (Option Candidate) := []
  /-- Tokens so far, latest first, and their number. -/
  tokens : List Token := []
  count : Nat := 0

namespace Lexer

def ofChars (cs : List Char) : Lexer := { cursor := Cursor.ofChars cs }

def emit (t : Token) (s : Lexer) : Lexer :=
  { s with tokens := t :: s.tokens, count := s.count + 1 }

def insertAt (number : Nat) (t : Token) (s : Lexer) : Lexer :=
  let later := s.count - number
  { s with tokens := s.tokens.take later ++ t :: s.tokens.drop later, count := s.count + 1 }

def moved (c : Cursor) (s : Lexer) : Lexer := { s with cursor := c }

def allowKey (b : Bool) (s : Lexer) : Lexer := { s with keyAllowed := b }

def skipLines : Nat → Lexer → Lexer
  | 0, s => s
  | fuel + 1, s =>
    let c := s.cursor.skipComment
    match c.break? with
    | none => s.moved c
    | some (_, c) =>
      -- outside of flow collections a key may begin on a new line
      skipLines fuel ((s.moved c).allowKey (s.flow = 0 || s.keyAllowed))

def skipToToken (s : Lexer) : Lexer :=
  let c := if s.cursor.index = 0 && s.cursor.peek = some byteOrderMark then s.cursor.step
    else s.cursor
  skipLines (c.rest.length + 1) (s.moved c)

/-- A candidate lapses at the end of its line and after a thousand characters. -/
def lapsed (c : Cursor) (k : Candidate) : Bool := k.line ≠ c.line || 1024 < c.index - k.index

def renew (c : Cursor) : Option Candidate → Except Fault (Option Candidate)
  | none => .ok none
  | some k =>
    if lapsed c k then (if k.required then .error .malformed else .ok none) else .ok (some k)

def renewCandidates (s : Lexer) : Except Fault Lexer := do
  let candidate ← renew s.cursor s.candidate
  let around ← s.around.mapM (renew s.cursor)
  pure { s with candidate, around }

def dropCandidate (s : Lexer) : Except Fault Lexer :=
  if s.candidate.any (·.required) then .error .malformed
  else .ok { s with candidate := none }

def noteCandidate (s : Lexer) : Except Fault Lexer :=
  if s.keyAllowed then do
    let s ← s.dropCandidate
    let c := s.cursor
    pure { s with
      candidate := some
        ⟨s.count, c.index, c.line, c.column, s.flow = 0 && s.indent = (c.column : Int)⟩ }
  else .ok s

def unwindTo (column : Int) : List Int → Lexer → Lexer
  | outer, s =>
    if s.indent ≤ column then { s with outer := outer }
    else match outer with
      | [] => { s with outer := [] }
      | i :: outer => unwindTo column outer { s.emit .blockEnd with indent := i }

def unwind (column : Int) (s : Lexer) : Lexer :=
  if s.flow = 0 then unwindTo column s.outer s else s

def deepens (column : Nat) (s : Lexer) : Bool := s.indent < (column : Int)

def indentTo (column : Nat) (s : Lexer) : Lexer :=
  { s with indent := column, outer := s.indent :: s.outer }

/-- Begins a block collection at this column unless one is open there. -/
def beginBlock (t : Token) (s : Lexer) : Lexer :=
  if s.flow = 0 && s.deepens s.cursor.column then (s.indentTo s.cursor.column).emit t else s

def closeAll (s : Lexer) : Except Fault Lexer := do
  pure ((← (s.unwind (-1)).dropCandidate).allowKey false)

def mark (t : Token) (width : Nat) (s : Lexer) : Lexer :=
  (s.emit t).moved (s.cursor.steps width)

def openFlow (t : Token) (s : Lexer) : Except Fault Lexer := do
  let s ← s.noteCandidate
  pure ({ s with
    flow := s.flow + 1, keyAllowed := true, candidate := none,
    around := s.candidate :: s.around }.mark t 1)

def closeFlow (t : Token) (s : Lexer) : Except Fault Lexer := do
  let s ← s.dropCandidate
  match s.flow, s.around with
  | flow + 1, k :: around =>
    pure ({ s with flow, candidate := k, around, keyAllowed := false }.mark t 1)
  | _, _ => .error .malformed

def flowComma (s : Lexer) : Except Fault Lexer := do
  pure ((← s.dropCandidate).allowKey true |>.mark .flowEntry 1)

def dash (s : Lexer) : Except Fault Lexer := do
  if s.flow = 0 && !s.keyAllowed then .error .malformed
  else pure ((← ((s.beginBlock .blockSequence).allowKey true).dropCandidate).mark .blockEntry 1)

def question (s : Lexer) : Except Fault Lexer := do
  if s.flow = 0 && !s.keyAllowed then .error .malformed
  else
    pure ((← ((s.beginBlock .blockMapping).allowKey (s.flow = 0)).dropCandidate).mark .key 1)

def colon (s : Lexer) : Except Fault Lexer :=
  match s.candidate with
  | some k =>
    -- the candidate was a key, and a mapping may begin before it
    let s := { s with candidate := none }.insertAt k.number .key
    let s :=
      if s.flow = 0 && s.deepens k.column then
        (s.indentTo k.column).insertAt k.number .blockMapping
      else s
    .ok ((s.allowKey false).mark .value 1)
  | none => do
    if s.flow = 0 && !s.keyAllowed then .error .malformed
    else
      pure ((← ((s.beginBlock .blockMapping).allowKey (s.flow = 0)).dropCandidate).mark .value 1)

def leaf (scan : Cursor → Except Fault (Token × Cursor)) (s : Lexer) : Except Fault Lexer := do
  let s ← s.noteCandidate
  let (t, c) ← scan s.cursor
  pure (((s.allowKey false).emit t).moved c)

def plain (s : Lexer) : Except Fault Lexer := do
  let s ← s.noteCandidate
  let (text, c, crossed) := plainScalar (s.flow ≠ 0) (s.indent + 1) s.cursor
  pure (((s.allowKey crossed).emit (.scalar (Text.ofChars text) true)).moved c)

def quoted (double : Bool) (s : Lexer) : Except Fault Lexer :=
  s.leaf fun c => (quotedScalar double c).map fun r => (.scalar r.1 false, r.2)

def block (folded : Bool) (s : Lexer) : Except Fault Lexer := do
  let s ← (s.allowKey true).dropCandidate
  let (text, c) ← blockScalar folded s.indent s.cursor
  pure ((s.emit (.scalar (Text.ofChars text) false)).moved c)

def startsPlain (flow : Bool) (ch : Char) (next : Option Char) : Bool :=
  !endsWord (some ch) && !isIndicator ch &&
    (if ch = '-' then !endsWord next
     else if ch = '?' || ch = ':' then !flow && !endsWord next
     else true)

def next (ch : Char) (s : Lexer) : Except Fault Lexer :=
  let c := s.cursor
  let after := c.peekAt 1
  let flow := s.flow ≠ 0
  if ch = '%' && c.column = 0 then do
    let s ← s.closeAll
    let (t, c) ← directive c
    pure ((s.emit t).moved c)
  else if ch = '-' && c.column = 0 && c.atSeparator then do
    pure ((← s.closeAll).mark .documentStart 3)
  else if ch = '.' && c.column = 0 && c.atSeparator then do
    pure ((← s.closeAll).mark .documentEnd 3)
  else if ch = '[' then s.openFlow .flowSequence
  else if ch = '{' then s.openFlow .flowMapping
  else if ch = ']' then s.closeFlow .flowSequenceEnd
  else if ch = '}' then s.closeFlow .flowMappingEnd
  else if ch = ',' then s.flowComma
  else if ch = '-' && endsWord after then s.dash
  else if ch = '?' && (flow || endsWord after) then s.question
  else if ch = ':' && (flow || endsWord after) then s.colon
  else if ch = '*' then s.leaf fun c => (anchorName c).map fun r => (.alias r.1, r.2)
  else if ch = '&' then s.leaf fun c => (anchorName c).map fun r => (.anchor r.1, r.2)
  else if ch = '!' then s.leaf tagToken
  else if ch = '|' && !flow then s.block false
  else if ch = '>' && !flow then s.block true
  else if ch = '\'' then s.quoted false
  else if ch = '"' then s.quoted true
  else if startsPlain flow ch after then s.plain
  else .error .malformed

def advance (s : Lexer) : Except Fault (Lexer ⊕ Lexer) := do
  let s ← s.skipToToken.renewCandidates
  let s := s.unwind s.cursor.column
  match s.cursor.peek with
  -- at the end of the text everything that is open ends
  | none => pure (.inr ((← s.closeAll).emit .streamEnd))
  | some ch => pure (.inl (← s.next ch))

/-- How many tokens are settled: no key can be put in before them any more. -/
def settled (s : Lexer) : Nat :=
  (s.candidate :: s.around).foldl
    (fun n k => (k.filter fun k => !lapsed s.cursor k).elim n fun k => min n k.number) s.count

/-- All tokens of the rest of the text, before them those found so far, latest first. -/
def run : Nat → Lexer → List Token
  | 0, s => .fault .malformed :: s.tokens
  | fuel + 1, s =>
    match s.advance with
    -- whoever reads the tokens meets the fault as soon as those before it are settled
    | .error f => .fault f :: s.tokens.drop (s.count - s.settled)
    | .ok (.inr s) => s.tokens
    | .ok (.inl s) => run fuel s

end Lexer

def tokens (cs : List Char) : List Token :=
  if cs.all isAllowed then ((Lexer.ofChars cs).run (cs.length + 2)).reverse
  else [.fault .malformed]

end AuthMap.Yaml
