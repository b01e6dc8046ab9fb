import AuthMap.Event
import AuthMap.Json.Conversion
import AuthMap.Json.Shown
import AuthMap.Text.Line

/-! Events as a console shows them: time, level, name and logger first, then the other fields in
the order of their names, and below them a stack and an exception. -/

namespace AuthMap.Event

/-- The value of a field as it stands among others: a text is quoted if blanks, breaks, quotes or
equals signs in it would be misread. -/
def consoleValue : Json → String
  | .str t => if t.any (Text.ofString " \t=\r\n\"'").contains then t.quoted else t.shown
  | j => j.shown

def placedNames : List String :=
  ["stack", "exception", "exc_info", "timestamp", "level", "event", "logger", "logger_name"]

def padRight (width : Nat) (s : String) : String :=
  s ++ String.ofList (List.replicate (width - s.length) ' ')

/-- The parts of what is shown first: one line, unless a text in it breaks it. -/
def consoleParts (fields : List (String × Json)) : List String :=
  let placed (name : String) (form : String → String) : List String :=
    ((Json.field? name fields).map fun j => form j.shown).toList
  let bracketed (s : String) : String := "[" ++ s ++ "]"
  let others := (fields.filter fun f => !placedNames.contains f.1).mergeSort
    fun a b => !(b.1 < a.1)
  placed "timestamp" id ++ placed "level" (fun s => bracketed (padRight 9 s)) ++
    placed "event" (padRight 30) ++ placed "logger" bracketed ++
    placed "logger_name" bracketed ++ others.map fun f => f.1 ++ "=" ++ consoleValue f.2

def withoutEndBlanks (s : String) : String :=
  String.ofList ((s.toList.reverse.dropWhile (· = ' ')).reverse)

/-- A field that is null counts as absent. -/
def present? (name : String) (fields : List (String × Json)) : Option Json :=
  (Json.field? name fields).filter fun j => match j with | .null => false | _ => true

def below : Json → Except ShapeFault String
  | .str t => .ok ("\n" ++ t.shown)
  | j => .error (.notText j.typeName)

def consoleText (fields : List (String × Json)) : Except ShapeFault String := do
  let exception := present? "exception" fields
  let raised := exception.isSome || (Json.field? "exc_info" fields).any fun j => !j.isEmpty
  let stack ← (present? "stack" fields).elim (pure "") fun j => do
    let rule := "\n\n" ++ String.ofList (List.replicate 79 '=') ++ "\n"
    pure ((← below j) ++ if raised then rule else "")
  let exception ← exception.elim (pure "") below
  let first := String.intercalate " " ((consoleParts fields).filter (· ≠ ""))
  pure (withoutEndBlanks first ++ stack ++ exception)

/-- How many lines an event takes on a console; none if it is below the level. -/
def height (least : Level) (timestamp : Json) (context : Option TraceContext) (e : Event) :
    Except ShapeFault Nat := do
  if e.isShown least then
    let text ← consoleText (e.recorded timestamp context)
    pure (Text.lineEnds (text ++ "\n").toList)
  else pure 0

end AuthMap.Event
