import AuthMap.Yaml.Token
import AuthMap.Yaml.Cursor

/-! Block scalars: indented lines after a bar, kept, or after an angle, folded. -/

namespace AuthMap.Yaml

/-- What becomes of the line breaks at the end: all but one dropped, all dropped, or all kept. -/
inductive Chomping where
  | clip
  | strip
  | keep
  deriving DecidableEq, Repr

def chomping? : Char → Option Chomping
  | '+' => some .keep
  | '-' => some .strip
  | _ => none

def increment? (ch : Char) : Option Nat := if ch.isDigit then some (ch.toNat - 0x30) else none

/-- The header of a block scalar: chomping and indentation in either order. -/
def blockHeader (c : Cursor) : Except Fault (Chomping × Option Nat × Cursor) := do
  let (chomp, inc, c) :=
    match c.peek.bind chomping?, c.peek.bind increment? with
    | some chomp, _ =>
      let c := c.step
      match c.peek.bind increment? with
      | some inc => (chomp, some inc, c.step)
      | none => (chomp, none, c)
    | none, some inc =>
      let c := c.step
      match c.peek.bind chomping? with
      | some chomp => (chomp, some inc, c.step)
      | none => (.clip, some inc, c)
    | none, none => (.clip, none, c)
  if inc = some 0 || !endsLead c.peek then .error .malformed
  else
    let c := c.skipComment
    if endsLine c.peek then pure (chomp, inc, (c.break?.map (·.2)).getD c)
    else .error .malformed

/-- Empty lines at the start, and the furthest column that their blanks reach. -/
def measureIndent : Nat → Nat → Cursor → List Char × Nat × Cursor
  | 0, most, c => ([], most, c)
  | fuel + 1, most, c =>
    if c.peek = some ' ' then measureIndent fuel (max most c.step.column) c.step
    else match c.break? with
      | none => ([], most, c)
      | some (b, c) =>
        let (bs, most, c) := measureIndent fuel most c
        (b :: bs, most, c)

def skipTo (indent : Nat) : Nat → Cursor → Cursor
  | 0, c => c
  | fuel + 1, c =>
    if c.column < indent && c.peek = some ' ' then skipTo indent fuel c.step else c

def blockBreaks (indent : Nat) : Nat → Cursor → List Char × Cursor
  | 0, c => ([], c)
  | fuel + 1, c =>
    let c := skipTo indent indent c
    match c.break? with
    | none => ([], c)
    | some (b, c) =>
      let (bs, c) := blockBreaks indent fuel c
      (b :: bs, c)

def chomped (chomp : Chomping) (last : List Char) (breaks : List Char) : List Char :=
  match chomp with
  | .clip => last
  | .strip => []
  | .keep => last ++ breaks

def startsBlank (c : Cursor) : Bool := c.peek = some ' ' || c.peek = some '\t'

/-- The lines of a block scalar from here on, given the empty lines before this place. -/
def blockLines (folded : Bool) (chomp : Chomping) (indent : Nat) : Nat → List Char → Cursor →
    List Char × Cursor
  | 0, _, c => ([], c)
  | fuel + 1, breaks, c =>
    let spaced := startsBlank c
    let text := c.run fun ch => !isBreak ch
    let c := c.steps text.length
    let (last, c) := match c.break? with
      | some (b, c) => ([b], c)
      | none => ([], c)
    let (breaks', c) := blockBreaks indent (c.rest.length + 1) c
    if c.column = indent && !c.rest.isEmpty then
      let joint :=
        if folded && last = ['\n'] && !spaced && !startsBlank c then
          if breaks'.isEmpty then [' '] else []
        else last
      let (more, c) := blockLines folded chomp indent fuel breaks' c
      (breaks ++ text ++ joint ++ more, c)
    else (breaks ++ text ++ chomped chomp last breaks', c)

def blockScalar (folded : Bool) (parent : Int) (c : Cursor) :
    Except Fault (List Char × Cursor) := do
  let (chomp, inc, c) ← blockHeader c.step
  let least := (max 1 (parent + 1)).toNat
  let fuel := c.rest.length + 1
  let (breaks, indent, c) := match inc with
    | none =>
      let (breaks, most, c) := measureIndent fuel 0 c
      (breaks, max least most, c)
    | some inc =>
      let indent := least + inc - 1
      let (breaks, c) := blockBreaks indent fuel c
      (breaks, indent, c)
  if c.column = indent && !c.rest.isEmpty then pure (blockLines folded chomp indent fuel breaks c)
  else pure (chomped chomp [] breaks, c)

end AuthMap.Yaml
