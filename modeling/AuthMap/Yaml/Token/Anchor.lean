import AuthMap.Yaml.Token

/-! Names among tokens. An alias needs an anchor of its name before it, and no name is given
twice. -/

namespace AuthMap.Yaml

/-- Puts a fault where a name is first found wrong. The flag tells that a name has been given
twice. -/
def checkNames : List (List Char) → Bool → List Token → List Token
  | _, _, [] => []
  | _, _, .fault f :: _ => [.fault f]
  | names, twice, .anchor name :: ts =>
    .anchor name :: checkNames (name :: names) (twice || names.contains name) ts
  -- the fault of an anchor shows only at the node behind it, and a tag is none
  | names, twice, .tag h a :: ts => .tag h a :: checkNames names twice ts
  | names, false, .alias name :: ts =>
    if names.contains name then .alias name :: checkNames names false ts
    else [.fault .malformed]
  | names, false, t :: ts => t :: checkNames names false ts
  | _, true, _ :: _ => [.fault .malformed]

end AuthMap.Yaml
