import AuthMap.Event
import AuthMap.Redact
import AuthMap.Trouble

/-! Spans: what an operation was about and how it ended. -/

namespace AuthMap

inductive SpanStatus where
  | ok
  | error
  deriving DecidableEq, Repr

def SpanStatus.name : SpanStatus → String
  | .ok => "OK"
  | .error => "ERROR"

structure Span where
  name : String
  attributes : List (String × Json)
  status : SpanStatus
  deriving Repr

namespace Span

def mostAttributes : Nat := 128

mutual

/-- A value as an attribute keeps it: inside it, fields without a name go. -/
def kept : Json → Json
  | .arr items => .arr (keptItems items)
  | .obj fields => .obj (keptFields fields)
  | j => j

def keptItems : List Json → List Json
  | [] => []
  | j :: js => kept j :: keptItems js

def keptFields : List (String × Json) → List (String × Json)
  | [] => []
  | (name, j) :: fs => if name = "" then keptFields fs else (name, kept j) :: keptFields fs

end

def setAttribute (attributes : List (String × Json)) (f : String × Json) :
    List (String × Json) :=
  if f.1 = "" then attributes
  else
    -- the attribute comes last, and the oldest makes room for it
    let others := attributes.filter (·.1 ≠ f.1)
    others.drop (others.length + 1 - mostAttributes) ++ [(f.1, kept f.2)]

def setAttributes (attributes new : List (String × Json)) : List (String × Json) :=
  new.foldl setAttribute attributes

def start (operation : String) (name ns arn : Option String) (extra : List (String × Json)) :
    List (String × Json) :=
  let given (key : String) (value : Option String) : List (String × Json) :=
    (value.map fun s => (key, .str s)).toList
  setAttributes []
    (setFields ([("authmap.operation", .str operation)] ++
      given "authmap.configmap.name" name ++ given "authmap.configmap.namespace" ns ++
      given "authmap.arn" arn) extra)

def finish (operation : String) (attributes : List (String × Json)) (outcome : Option Trouble) :
    Span :=
  let name := "authmap." ++ operation
  match outcome with
  | none => ⟨name, attributes, .ok⟩
  | some t =>
    ⟨name, setAttributes attributes
      [("exception.type", .str t.kind),
        ("exception.message", .str (sanitize messageLimit t.message))],
      .error⟩

end Span

end AuthMap
