import AuthMap.Yaml.Tree

/-! Trees read from tokens, by descent. Every function takes the tokens from its place on and
returns those that it leaves. -/

namespace AuthMap.Yaml

abbrev Handles := List (List Char × List Char)

def Handles.default : Handles :=
  [(['!'], ['!']), (['!', '!'], "tag:yaml.org,2002:".toList)]

def Handles.address? (hs : Handles) (handle : List Char) : Option (List Char) :=
  (hs.find? fun h => h.1 = handle).map (·.2)

def refuse : List Token → Fault
  | .fault f :: _ => f
  | _ => .malformed

def fullTag (hs : Handles) : Option (List Char) → List Char → Except Fault (List Char)
  | none, address => .ok address
  | some handle, address =>
    match hs.address? handle with
    | some start => .ok (start ++ address)
    | none => .error .malformed

def props (hs : Handles) : List Token → Except Fault (Props × List Token)
  | .anchor a :: .tag h t :: ts => do pure (⟨some a, some (← fullTag hs h t)⟩, ts)
  | .tag h t :: .anchor a :: ts => do pure (⟨some a, some (← fullTag hs h t)⟩, ts)
  -- a handle that is not known matters only once what follows the tag has been seen
  | .tag _ _ :: .fault f :: _ => .error f
  | .anchor a :: ts => .ok (⟨some a, none⟩, ts)
  | .tag h t :: ts => do pure (⟨none, some (← fullTag hs h t)⟩, ts)
  | ts => .ok ({}, ts)

/-- Whether the value of a scalar goes by its text: it is plain without a tag, or its tag says
so. -/
def goesByText (p : Props) (plain : Bool) : Bool := (plain && p.tag.isNone) || p.tag = some ['!']

/-- An empty node, allowed where an anchor or a tag announces one. -/
def leftOut (p : Props) (ts : List Token) : Except Fault (Tree × List Token) :=
  match ts with
  | .fault f :: _ => .error f
  | ts =>
    if p.anchor.isSome || p.tag.isSome then .ok (.scalar p [] (goesByText p true), ts)
    else .error (refuse ts)

/-- Where a node stands: as a side of an entry in a block mapping, where a sequence may begin
without further indentation, or elsewhere. -/
inductive Place where
  | side
  | other
  deriving DecidableEq

mutual

def node (hs : Handles) (place : Place) : Nat → List Token → Except Fault (Tree × List Token)
  | 0, _ => .error .malformed
  | fuel + 1, ts => do
    match ts with
    | .alias name :: ts => pure (.alias name, ts)
    | ts =>
      let (p, ts) ← props hs ts
      match ts, place with
      | .blockEntry :: _, .side =>
        let (items, ts) ← indentless hs fuel ts
        pure (.seq p items, ts)
      | .scalar text plain :: ts, _ => pure (.scalar p text (goesByText p plain), ts)
      | .flowSequence :: ts, _ =>
        let (items, ts) ← flowItems hs true fuel ts
        pure (.seq p items, ts)
      | .flowMapping :: ts, _ =>
        let (entries, ts) ← flowEntries hs true fuel ts
        pure (.map p entries, ts)
      | .blockSequence :: ts, _ =>
        let (items, ts) ← blockItems hs fuel ts
        pure (.seq p items, ts)
      | .blockMapping :: ts, _ =>
        let (entries, ts) ← blockEntries hs fuel ts
        pure (.map p entries, ts)
      | ts, _ => leftOut p ts

def blockItems (hs : Handles) : Nat → List Token → Except Fault (List Tree × List Token)
  | 0, _ => .error .malformed
  | fuel + 1, ts => do
    match ts with
    | .blockEntry :: ts =>
      let (item, ts) ←
        match ts with
        | .blockEntry :: _ | .blockEnd :: _ => pure (Tree.empty, ts)
        | _ => node hs .other fuel ts
      let (items, ts) ← blockItems hs fuel ts
      pure (item :: items, ts)
    | .blockEnd :: ts => pure ([], ts)
    | ts => .error (refuse ts)

def indentless (hs : Handles) : Nat → List Token → Except Fault (List Tree × List Token)
  | 0, _ => .error .malformed
  | fuel + 1, ts => do
    match ts with
    | .blockEntry :: ts =>
      let (item, ts) ←
        match ts with
        | .blockEntry :: _ | .key :: _ | .value :: _ | .blockEnd :: _ => pure (Tree.empty, ts)
        | _ => node hs .other fuel ts
      let (items, ts) ← indentless hs fuel ts
      pure (item :: items, ts)
    | ts => pure ([], ts)

def blockEntries (hs : Handles) : Nat → List Token →
    Except Fault (List (Tree × Tree) × List Token)
  | 0, _ => .error .malformed
  | fuel + 1, ts => do
    match ts with
    | .key :: ts =>
      let (k, ts) ← blockSide hs fuel ts
      let (v, ts) ←
        match ts with
        | .value :: ts => blockSide hs fuel ts
        | ts => pure (Tree.empty, ts)
      let (entries, ts) ← blockEntries hs fuel ts
      pure ((k, v) :: entries, ts)
    | .blockEnd :: ts => pure ([], ts)
    | ts => .error (refuse ts)

def blockSide (hs : Handles) : Nat → List Token → Except Fault (Tree × List Token)
  | 0, _ => .error .malformed
  | fuel + 1, ts =>
    match ts with
    | .key :: _ | .value :: _ | .blockEnd :: _ => pure (Tree.empty, ts)
    | _ => node hs .side fuel ts

def flowItems (hs : Handles) (first : Bool) : Nat → List Token →
    Except Fault (List Tree × List Token)
  | 0, _ => .error .malformed
  | fuel + 1, ts => do
    match ts with
    | .flowSequenceEnd :: ts => pure ([], ts)
    | ts =>
      let ts ←
        match ts, first with
        | ts, true => pure ts
        | .flowEntry :: ts, false => pure ts
        | ts, false => .error (refuse ts)
      match ts with
      | .flowSequenceEnd :: ts => pure ([], ts)
      | .key :: ts =>
        let (k, ts) ←
          match ts with
          | .value :: _ | .flowEntry :: _ | .flowSequenceEnd :: _ => pure (Tree.empty, ts)
          | _ => node hs .other fuel ts
        let (v, ts) ←
          match ts with
          | .value :: ts =>
            match ts with
            | .flowEntry :: _ | .flowSequenceEnd :: _ => pure (Tree.empty, ts)
            | _ => node hs .other fuel ts
          | ts => pure (Tree.empty, ts)
        let (items, ts) ← flowItems hs false fuel ts
        pure (.map {} [(k, v)] :: items, ts)
      | ts =>
        let (item, ts) ← node hs .other fuel ts
        let (items, ts) ← flowItems hs false fuel ts
        pure (item :: items, ts)

def flowEntries (hs : Handles) (first : Bool) : Nat → List Token →
    Except Fault (List (Tree × Tree) × List Token)
  | 0, _ => .error .malformed
  | fuel + 1, ts => do
    match ts with
    | .flowMappingEnd :: ts => pure ([], ts)
    | ts =>
      let ts ←
        match ts, first with
        | ts, true => pure ts
        | .flowEntry :: ts, false => pure ts
        | ts, false => .error (refuse ts)
      match ts with
      | .flowMappingEnd :: ts => pure ([], ts)
      | .key :: ts =>
        let (k, ts) ←
          match ts with
          | .value :: _ | .flowEntry :: _ | .flowMappingEnd :: _ => pure (Tree.empty, ts)
          | _ => node hs .other fuel ts
        let (v, ts) ←
          match ts with
          | .value :: ts =>
            match ts with
            | .flowEntry :: _ | .flowMappingEnd :: _ => pure (Tree.empty, ts)
            | _ => node hs .other fuel ts
          | ts => pure (Tree.empty, ts)
        let (entries, ts) ← flowEntries hs false fuel ts
        pure ((k, v) :: entries, ts)
      | ts =>
        let (k, ts) ← node hs .other fuel ts
        let (entries, ts) ← flowEntries hs false fuel ts
        pure ((k, Tree.empty) :: entries, ts)

end

def directives : Bool → Handles → List Token → Except Fault (Handles × List Token)
  | versioned, hs, .reserved :: ts => directives versioned hs ts
  | versioned, hs, .version major :: ts =>
    if versioned || major ≠ 1 then .error .malformed else directives true hs ts
  | versioned, hs, .shorthand h a :: ts =>
    if (hs.address? h).isSome then .error .malformed
    else directives versioned (hs ++ [(h, a)]) ts
  | _, hs, ts => .ok (hs, ts)

def finish (ts : List Token) : Except Fault Unit :=
  match ts.dropWhile (· = .documentEnd) with
  | [.streamEnd] => .ok ()
  | ts => do
    -- a second document is refused, though its directives may be wrong in themselves
    let (_, ts) ← directives false [] ts
    .error (refuse ts)

def document (ts : List Token) : Except Fault (Option Tree) := do
  let fuel := 4 * ts.length + 4
  match ts with
  | [.streamEnd] => pure none
  | .version _ :: _ | .shorthand _ _ :: _ | .reserved :: _ | .documentStart :: _ =>
    let (own, ts) ← directives false [] ts
    match ts with
    | .documentStart :: ts =>
      let (tree, ts) ←
        -- a document may be empty behind the mark of its start
        match ts with
        | .version _ :: _ | .shorthand _ _ :: _ | .reserved :: _ | .documentStart :: _
        | .documentEnd :: _ | .streamEnd :: _ => pure (Tree.empty, ts)
        | _ => node (own ++ Handles.default) .other fuel ts
      finish ts
      pure (some tree)
    | ts => .error (refuse ts)
  | ts =>
    let (tree, ts) ← node Handles.default .other fuel ts
    finish ts
    pure (some tree)

end AuthMap.Yaml
