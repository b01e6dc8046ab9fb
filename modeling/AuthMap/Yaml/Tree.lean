import AuthMap.Yaml.Token

/-! A YAML document as it is written: a tree whose leaves may refer to anchors. -/

namespace AuthMap.Yaml

/-- What may stand before a node: an anchor to refer to it by, and the full address of a tag. -/
structure Props where
  anchor : Option (List Char) := none
  tag : Option (List Char) := none
  deriving DecidableEq, Repr, Inhabited

inductive Tree where
  | alias (name : List Char)
  | scalar (props : Props) (text : Text) (plain : Bool)
  | seq (props : Props) (items : List Tree)
  | map (props : Props) (entries : List (Tree × Tree))
  deriving Repr, Inhabited

def Tree.empty : Tree := .scalar {} [] true

end AuthMap.Yaml
