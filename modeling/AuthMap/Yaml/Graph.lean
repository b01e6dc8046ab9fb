import AuthMap.Yaml.Tree
import AuthMap.Yaml.Tag

/-! A document as a graph: every node has a number and a type, and an alias is one more way to
the node it names. Merge keys are resolved here, by moving entries between mappings. -/

namespace AuthMap.Yaml

inductive Body where
  | scalar (text : Text)
  | seq (items : List Nat)
  | map (entries : List (Nat × Nat))
  deriving DecidableEq, Repr, Inhabited

structure Node where
  tag : Tag
  body : Body
  deriving DecidableEq, Repr, Inhabited

abbrev Graph := Array Node

/-- The type that a tag names; one that only marks the node leaves it as it is. -/
def Props.tagOr (p : Props) (default : Tag) : Tag :=
  match p.tag with
  | none => default
  | some address => if address = ['!'] then default else Tag.ofAddress address

structure Numbering where
  nodes : Graph := #[]
  anchors : List (List Char × Nat) := []

namespace Numbering

def find? (name : List Char) (b : Numbering) : Option Nat :=
  (b.anchors.find? fun a => a.1 = name).map (·.2)

def add (p : Props) (n : Node) (b : Numbering) : Except Fault (Nat × Numbering) :=
  let i := b.nodes.size
  let nodes := b.nodes.push n
  match p.anchor with
  | none => .ok (i, { b with nodes })
  | some name =>
    -- no anchor is set twice
    if (b.find? name).isSome then .error .malformed
    else .ok (i, { nodes, anchors := (name, i) :: b.anchors })

def setBody (i : Nat) (body : Body) (b : Numbering) : Numbering :=
  { b with nodes := b.nodes.modify i fun n => { n with body } }

end Numbering

mutual

def Tree.number : Tree → Numbering → Except Fault (Nat × Numbering)
  | .alias name, b =>
    match b.find? name with
    | some i => .ok (i, b)
    | none => .error .malformed
  | .scalar p text plain, b =>
    b.add p ⟨p.tagOr (if plain then Tag.ofText text else .text), .scalar text⟩
  | .seq p items, b => do
    -- the container comes before its elements, which may refer back to it
    let (i, b) ← b.add p ⟨p.tagOr .seq, .seq []⟩
    let (is, b) ← numberItems items b
    pure (i, b.setBody i (.seq is))
  | .map p entries, b => do
    let (i, b) ← b.add p ⟨p.tagOr .map, .map []⟩
    let (es, b) ← numberEntries entries b
    pure (i, b.setBody i (.map es))

def numberItems : List Tree → Numbering → Except Fault (List Nat × Numbering)
  | [], b => .ok ([], b)
  | t :: ts, b => do
    let (i, b) ← t.number b
    let (is, b) ← numberItems ts b
    pure (i :: is, b)

def numberEntries : List (Tree × Tree) → Numbering →
    Except Fault (List (Nat × Nat) × Numbering)
  | [], b => .ok ([], b)
  | (k, v) :: es, b => do
    let (i, b) ← k.number b
    let (j, b) ← v.number b
    let (ijs, b) ← numberEntries es b
    pure ((i, j) :: ijs, b)

end

namespace Graph

def ofTree (t : Tree) : Except Fault Graph := do
  let (_, b) ← t.number {}
  pure b.nodes

def node (i : Nat) (g : Graph) : Node := g.getD i default

def tag (i : Nat) (g : Graph) : Tag := (g.node i).tag

def entries (i : Nat) (g : Graph) : List (Nat × Nat) :=
  match (g.node i).body with
  | .map es => es
  | _ => []

def setEntries (i : Nat) (es : List (Nat × Nat)) (g : Graph) : Graph :=
  g.modify i fun n => { n with body := .map es }

def firstMerge (g : Graph) : List (Nat × Nat) → Option (Nat × List (Nat × Nat))
  | [] => none
  | (k, v) :: es =>
    if g.tag k = .merge then some (v, es)
    else (firstMerge g es).map fun r => (r.1, (k, v) :: r.2)

/-- Keys that stand for a value are texts once their mapping is read as one. -/
def settleKeys (es : List (Nat × Nat)) (g : Graph) : Graph :=
  es.foldl (fun g e => if g.tag e.1 = .value then g.modify e.1 ({ · with tag := .text }) else g) g

/-- Takes the merge keys out of a mapping, first to last, and gathers what they bring. -/
def flattenFrom : Nat → List (Nat × Nat) → Nat → Graph → Except Fault Graph
  | 0, _, _, _ => .error .malformed
  | fuel + 1, merged, i, g =>
    match firstMerge g (g.entries i) with
    | none =>
      let g := g.settleKeys (g.entries i)
      -- the mapping's own entries come last, so that they stand
      .ok (if merged.isEmpty then g else g.setEntries i (merged ++ g.entries i))
    | some (v, es) => do
      let g := g.setEntries i es
      match (g.node v).body with
      | .map _ =>
        let g ← flattenFrom fuel [] v g
        flattenFrom fuel (merged ++ g.entries v) i g
      | .seq items =>
        -- of several mappings under one key the last comes first
        let (parts, g) ← items.foldlM
          (fun (parts, g) j =>
            match (Graph.node j g).body with
            | .map _ => do
              let g ← flattenFrom fuel [] j g
              pure (Graph.entries j g :: parts, g)
            | _ => Except.error Fault.malformed)
          (([] : List (List (Nat × Nat))), g)
        flattenFrom fuel (merged ++ parts.flatten) i g
      | .scalar _ => .error .malformed

def entryCount (g : Graph) : Nat :=
  g.foldl (fun n node => match node.body with | .map es => n + es.length | _ => n) 0

def flatten (i : Nat) (g : Graph) : Except Fault Graph :=
  flattenFrom (2 * g.entryCount + 2) [] i g

/-- The text of a scalar, or of the value that stands for a mapping. -/
def scalarText : Nat → Nat → Graph → Except Fault (Text)
  | 0, _, _ => .error .malformed
  | fuel + 1, i, g =>
    match (g.node i).body with
    | .scalar text => .ok text
    | .map es =>
      match es.find? fun e => g.tag e.1 = .value with
      | some (_, v) => scalarText fuel v g
      | none => .error .malformed
    | .seq _ => .error .malformed

def text (i : Nat) (g : Graph) : Except Fault (Text) := scalarText (g.size + 1) i g

end Graph

end AuthMap.Yaml
