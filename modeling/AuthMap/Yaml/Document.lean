import AuthMap.Json.Basic
import AuthMap.Yaml.Graph
import AuthMap.Yaml.Scalar.Reading
import AuthMap.Yaml.Tree.Parser
import AuthMap.Yaml.Token.Anchor
import AuthMap.Yaml.Token.Lexer

/-! The values of a document. Containers refer to their elements by number, because an element
may be one of the containers around it. -/

namespace AuthMap.Yaml

/-- An element of a list: a cell, or a pair of cells in a list of pairs. -/
inductive Element where
  | cell (i : Nat)
  | pair (k v : Nat)
  deriving DecidableEq, Repr, Inhabited

inductive Cell where
  | scalar (s : Scalar)
  | list (items : List Element)
  | map (entries : List (Nat × Nat))
  | set (members : List Nat)
  deriving Repr, Inhabited

structure Document where
  cells : Array Cell
  root : Nat
  deriving Repr

namespace Document

def cell (d : Document) (i : Nat) : Cell := d.cells.getD i default

def sameKey (cells : Array Cell) (i j : Nat) : Bool :=
  i = j || match cells.getD i default, cells.getD j default with
  | .scalar a, .scalar b => a.same b
  | _, _ => false

/-- Adds an entry: one of the same key keeps its place and takes the new value. -/
def put (same : Nat → Nat → Bool) (k v : Nat) : List (Nat × Nat) → List (Nat × Nat)
  | [] => [(k, v)]
  | (k', v') :: es => if same k' k then (k', v) :: es else (k', v') :: put same k v es

def entriesOf (cells : Array Cell) (es : List (Nat × Nat)) : List (Nat × Nat) :=
  es.foldl (fun acc e => put (sameKey cells) e.1 e.2 acc) []

/-! ### Construction

Scalars get their values, and mappings their entries, level by level from the root. -/

structure Site where
  graph : Graph
  cells : Array (Option Cell)
  /-- Containers whose elements have not been visited. -/
  pending : List Nat := []

def Site.ofGraph (g : Graph) : Site := { graph := g, cells := Array.replicate g.size none }

namespace Site

def set (i : Nat) (c : Cell) (s : Site) : Site :=
  { s with cells := s.cells.setIfInBounds i (some c) }

def scalarAt (i : Nat) (s : Site) : Except Fault Scalar := do
  let text ← s.graph.text i
  match s.graph.tag i, (s.graph.node i).body with
  | .timestamp, .map _ => .error (.value .notText)
  | tag, _ => tag.scalar text

def visit (s : Site) (i : Nat) : Except Fault Site :=
  if (s.cells.getD i none).isSome then .ok s
  else
    match s.graph.tag i with
    | .merge | .value | .other => .error .malformed
    | tag =>
      -- a container has to wait until its level is done
      if tag.isContainer then .ok { s.set i (.list []) with pending := s.pending ++ [i] }
      else (s.scalarAt i).map fun v => s.set i (.scalar v)

def visitAll (is : List Nat) (s : Site) : Except Fault Site := is.foldlM visit s

def visitEntry (s : Site) (e : Nat × Nat) : Except Fault Site := do
  let s ← s.visit e.1
  if (s.graph.tag e.1).isContainer then .error .malformed else s.visit e.2

def visitEntries (es : List (Nat × Nat)) (s : Site) : Except Fault Site := es.foldlM visitEntry s

def pairAt (g : Graph) (i : Nat) : Except Fault (Nat × Nat) :=
  match (g.node i).body with
  | .map [e] => .ok e
  | _ => .error .malformed

def visitPair (s : Site) (i : Nat) : Except Fault Site := do
  let (k, v) ← pairAt s.graph i
  (← s.visit k).visit v

def expand (i : Nat) (s : Site) : Except Fault Site := do
  match s.graph.tag i, (s.graph.node i).body with
  | .seq, .seq items => s.visitAll items
  | .omap, .seq items | .pairs, .seq items => items.foldlM visitPair s
  | .map, .map _ | .set, .map _ =>
    -- merge keys are resolved only when the mapping is reached
    let graph ← s.graph.flatten i
    { s with graph }.visitEntries (graph.entries i)
  | _, _ => .error .malformed

/-- Expands what is pending, in order, as often as there are nodes. -/
def build : Nat → Site → Except Fault Site
  | 0, s => .ok s
  | fuel + 1, s =>
    match s.pending with
    | [] => .ok s
    | i :: rest => do
      let s ← { s with pending := rest }.expand i
      build fuel s

def finished (cells : Array Cell) (g : Graph) (i : Nat) (c : Cell) : Cell :=
  match c with
  | .scalar v => .scalar v
  | c =>
    match g.tag i, (g.node i).body with
    | .seq, .seq items => .list (items.map .cell)
    | .omap, .seq items | .pairs, .seq items =>
      .list (items.filterMap fun j => (pairAt g j).toOption.map fun e => .pair e.1 e.2)
    | .map, .map es => .map (entriesOf cells es)
    | .set, .map es => .set ((entriesOf cells es).map (·.1))
    | _, _ => c

def document (s : Site) : Document :=
  let cells := s.cells.map fun c => c.getD default
  { cells := cells.mapIdx (fun i c => finished cells s.graph i c), root := 0 }

end Site

def ofGraph (g : Graph) : Except Fault Document := do
  let s ← (Site.ofGraph g).visit 0
  pure (← s.build (g.size + 1)).document

/-- The document of a text, `none` if there is none in it. -/
def ofChars (cs : List Char) : Except Fault (Option Document) := do
  match ← Yaml.document (checkNames [] false (tokens cs)) with
  | none => pure none
  | some t => some <$> ofGraph (← Graph.ofTree t)

/-! ### Documents of plain values -/

mutual

def place : Json → Array Cell → Nat × Array Cell
  | .null, cs => (cs.size, cs.push (.scalar .null))
  | .bool b, cs => (cs.size, cs.push (.scalar (.bool b)))
  | .int n, cs => (cs.size, cs.push (.scalar (.int n)))
  | .real x, cs => (cs.size, cs.push (.scalar (.real x)))
  | .str t, cs => (cs.size, cs.push (.scalar (.text t)))
  | .arr items, cs =>
    let (is, cs) := placeItems items cs
    (cs.size, cs.push (.list (is.map .cell)))
  | .obj fields, cs =>
    let (es, cs) := placeFields fields cs
    (cs.size, cs.push (.map es))

def placeItems : List Json → Array Cell → List Nat × Array Cell
  | [], cs => ([], cs)
  | j :: js, cs =>
    let (i, cs) := place j cs
    let (is, cs) := placeItems js cs
    (i :: is, cs)

def placeFields : List (String × Json) → Array Cell → List (Nat × Nat) × Array Cell
  | [], cs => ([], cs)
  | (k, j) :: fs, cs =>
    let key := cs.size
    let (i, cs) := place j (cs.push (.scalar (.text (Text.ofString k))))
    let (es, cs) := placeFields fs cs
    ((key, i) :: es, cs)

end

def ofJson (j : Json) : Document :=
  let (root, cells) := place j #[]
  { cells, root }

/-! ### Access -/

def lookup (d : Document) (key : String) (es : List (Nat × Nat)) : Option Nat :=
  (es.find? fun e =>
    match d.cell e.1 with
    | .scalar (.text t) => t = Text.ofString key
    | _ => false).map (·.2)

def lookupSome (d : Document) (key : String) (es : List (Nat × Nat)) : Option Nat :=
  (d.lookup key es).filter fun i =>
    match d.cell i with
    | .scalar .null => false
    | _ => true

/-! ### Messages -/

def typeName (d : Document) (i : Nat) : String :=
  match d.cell i with
  | .scalar s => s.typeName
  | .list _ => "list"
  | .map _ => "dict"
  | .set _ => "set"

def elementType (d : Document) : Element → String
  | .cell i => d.typeName i
  | .pair _ _ => "tuple"

def commas (parts : List String) : String := String.intercalate ", " parts

/-- The text of a value in messages; a container inside itself is not spelled out again. -/
def shownFrom (d : Document) : Nat → List Nat → Nat → Option String
  | 0, _, _ => none
  | fuel + 1, path, i =>
    let inner := shownFrom d fuel (i :: path)
    match d.cell i with
    | .scalar s => s.shown?
    | .list items =>
      if path.contains i then some "[...]"
      else
        (items.mapM fun
          | Element.cell j => inner j
          | Element.pair k v => do pure ("(" ++ (← inner k) ++ ", " ++ (← inner v) ++ ")")).map
          fun parts => "[" ++ commas parts ++ "]"
    | .map entries =>
      if path.contains i then some "\x7b...\x7d"
      else
        (entries.mapM fun (e : Nat × Nat) => do
          pure ((← inner e.1) ++ ": " ++ (← inner e.2))).map fun parts =>
            "\x7b" ++ commas parts ++ "\x7d"
    | .set members =>
      if members.isEmpty then some "set()"
      else (members.mapM inner).map fun parts => "\x7b" ++ commas parts ++ "\x7d"

def shown? (d : Document) (i : Nat) : Option String := d.shownFrom (d.cells.size + 2) [] i

end Document

end AuthMap.Yaml
