import AuthMap.Yaml.Document

/-! Plain values as messages show them: a text as it stands, anything else spelled out. -/

namespace AuthMap.Json

/-- The text of a value; nothing for an integer too long to show. -/
def shown (j : Json) : String :=
  match j with
  | .str t => t.shown
  | j =>
    let d := Yaml.Document.ofJson j
    (d.shown? d.root).getD ""

end AuthMap.Json
