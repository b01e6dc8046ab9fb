import AuthMap.Json.Basic
import AuthMap.Yaml.Scalar

/-! Plain values taken for sequences and for dictionaries. A text is a sequence of its code points,
an object one of its names, and a sequence of pairs makes a dictionary. -/

namespace AuthMap

inductive ShapeFault where
  | notIterable (type : String)
  | notSequence (index : Nat)
  | notPair (index length : Nat)
  | unhashable (type : String)
  | notText (type : String)
  deriving DecidableEq, Repr

namespace ShapeFault

def message : ShapeFault → String
  | .notIterable type => "'" ++ type ++ "' object is not iterable"
  | .notSequence index =>
    "cannot convert dictionary update sequence element #" ++ toString index ++ " to a sequence"
  | .notPair index length =>
    "dictionary update sequence element #" ++ toString index ++ " has length " ++
      toString length ++ "; 2 is required"
  | .unhashable type => "unhashable type: '" ++ type ++ "'"
  | .notText type => "can only concatenate str (not \"" ++ type ++ "\") to str"

def kind : ShapeFault → String
  | .notPair _ _ => "ValueError"
  | _ => "TypeError"

end ShapeFault

namespace Json

def typeName : Json → String
  | .null => "NoneType"
  | .bool _ => "bool"
  | .int _ => "int"
  | .real _ => "float"
  | .str _ => "str"
  | .arr _ => "list"
  | .obj _ => "dict"

def isEmpty : Json → Bool
  | .null | .bool false | .int 0 | .str [] | .arr [] | .obj [] => true
  | .real x => x == 0
  | _ => false

/-- A value, or another in the place of one that is empty. -/
def orEmpty (j other : Json) : Json := if j.isEmpty then other else j

def elements : Json → Except ShapeFault (List Json)
  | .str t => .ok (t.map fun p => .str [p])
  | .arr items => .ok items
  | .obj fields => .ok (fields.map fun f => .str f.1)
  | j => .error (.notIterable j.typeName)

def asKey : Json → Except ShapeFault Json
  | .arr items => .error (.unhashable (Json.arr items).typeName)
  | .obj fields => .error (.unhashable (Json.obj fields).typeName)
  | j => .ok j

def pairAt (e : Json × Nat) : Except ShapeFault (Json × Json) :=
  match e.1.elements with
  | .error _ => .error (.notSequence e.2)
  | .ok [k, v] => do pure (← k.asKey, v)
  | .ok es => .error (.notPair e.2 es.length)

def scalar? : Json → Option Yaml.Scalar
  | .null => some .null
  | .bool b => some (.bool b)
  | .int n => some (.int n)
  | .real x => some (.real x)
  | .str t => some (.text t)
  | .arr _ | .obj _ => none

def sameKey (a b : Json) : Bool :=
  match a.scalar?, b.scalar? with
  | some a, some b => a.same b
  | _, _ => false

/-- Adds a pair: one of the same key keeps its place and takes the new value. -/
def putPair (p : Json × Json) : List (Json × Json) → List (Json × Json)
  | [] => [p]
  | q :: qs => if sameKey q.1 p.1 then (q.1, p.2) :: qs else q :: putPair p qs

def pairs : Json → Except ShapeFault (List (Json × Json))
  | .obj fields => .ok (fields.map fun f => (.str f.1, f.2))
  | j => do
    let ps ← (← j.elements).zipIdx.mapM pairAt
    pure (ps.foldl (fun qs p => putPair p qs) [])

end Json

end AuthMap
