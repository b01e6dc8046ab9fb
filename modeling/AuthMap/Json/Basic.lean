import AuthMap.Text.CodePoint

/-! JSON values. Whole numbers and fractions are told apart as they are written, and an object
keeps its fields in order. -/

namespace AuthMap

inductive Json where
  | null
  | bool (b : Bool)
  | int (n : Int)
  | real (x : Float)
  | str (t : Text)
  | arr (items : List Json)
  | obj (fields : List (String × Json))
  deriving Inhabited, Repr

namespace Json

/-- The last field of a name. -/
def field? (name : String) (fields : List (String × Json)) : Option Json :=
  (fields.reverse.find? fun f => f.1 = name).map (·.2)

def get? (name : String) : Json → Option Json
  | .obj fields => field? name fields
  | _ => none

def text? : Json → Option Text
  | .str t => some t
  | _ => none

def str? : Json → Option String
  | .str t => t.string?
  | _ => none

def texts (ts : List Text) : Json := .arr (ts.map .str)

def strings (ss : List String) : Json := texts (ss.map Text.ofString)

def ofOption (s : Option String) : Json := s.elim .null fun s => .str s

def ofText? (t : Option Text) : Json := t.elim .null .str

def ofTexts (fields : List (String × String)) : Json := .obj (fields.map fun f => (f.1, .str f.2))

end Json

end AuthMap
