import AuthMap.Yaml.Cursor

/-! Plain scalars: runs of characters with nothing around them, over as many lines as their
indentation holds. -/

namespace AuthMap.Yaml

def pausesPlain (flow : Bool) (ch : Char) (next : Option Char) : Bool :=
  endsWord (some ch) ||
    (ch = ':' && (endsWord next || (flow && next.any isBracket))) ||
    (flow && (ch = '?' || isBracket ch))

def plainRun (flow : Bool) : List Char → List Char
  | [] => []
  | ch :: rest => if pausesPlain flow ch rest.head? then [] else ch :: plainRun flow rest

def plainBreaks : Nat → Cursor → Option (List Char) × Cursor
  | 0, c => (some [], c)
  | fuel + 1, c =>
    if c.peek = some ' ' then plainBreaks fuel c.step
    else match c.break? with
      | none => (some [], c)
      | some (b, c) =>
        -- a document mark at the start of a line ends the scalar
        if c.atSeparator then (none, c)
        else
          let (bs, c) := plainBreaks fuel c
          (bs.map (b :: ·), c)

def foldBreak (first : Char) (others : List Char) : List Char :=
  -- a line feed alone is a space, and of several the first goes
  if first ≠ '\n' then first :: others
  else if others.isEmpty then [' '] else others

/-- What stands between two runs of a plain scalar: blanks of one line as they are, line breaks
folded. Nothing means that the scalar has ended. The flag tells whether a line was left. -/
def plainGap (c : Cursor) : List Char × Cursor × Bool :=
  let blanks := c.run (· = ' ')
  let c := c.skipSpaces
  match c.break? with
  | none => (blanks, c, false)
  | some (first, c) =>
    if c.atSeparator then ([], c, true)
    else match plainBreaks (c.rest.length + 1) c with
      | (none, c) => ([], c, true)
      | (some others, c) => (foldBreak first others, c, true)

/-- The text of a plain scalar, the place after it, and whether that is on a new line. -/
def plainText (flow : Bool) (indent : Int) : Nat → List Char → Cursor → Bool →
    List Char × Cursor × Bool
  | 0, _, c, crossed => ([], c, crossed)
  | fuel + 1, gap, c, crossed =>
    if c.peek = some '#' then ([], c, crossed)
    else match plainRun flow c.rest with
      | [] => ([], c, crossed)
      | run =>
        let (gap', c', crossed') := plainGap (c.steps run.length)
        -- what is indented less belongs to a collection around the scalar
        if gap'.isEmpty || c'.peek = some '#' || (!flow && (c'.column : Int) < indent) then
          (gap ++ run, c', crossed')
        else
          let (text, c'', crossed'') := plainText flow indent fuel gap' c' crossed'
          (gap ++ run ++ text, c'', crossed'')

def plainScalar (flow : Bool) (indent : Int) (c : Cursor) : List Char × Cursor × Bool :=
  plainText flow indent (c.rest.length + 1) [] c false

end AuthMap.Yaml
