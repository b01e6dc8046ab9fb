import AuthMap.Json.Basic
import AuthMap.Text.Quoted

/-! Events for the audit log, and the lines that they make. -/

namespace AuthMap

inductive Level where
  | debug
  | info
  | warning
  | error
  | critical
  deriving DecidableEq, Repr, Inhabited

namespace Level

def name : Level → String
  | .debug => "debug"
  | .info => "info"
  | .warning => "warning"
  | .error => "error"
  | .critical => "critical"

def rank : Level → Nat
  | .debug => 10
  | .info => 20
  | .warning => 30
  | .error => 40
  | .critical => 50

/-- A letter in upper case, for letters that matter to the names of levels. -/
def upper (c : Char) : Char := if c = '\u0131' then 'I' else c.toUpper

def ofName? (s : String) : Option Level :=
  match String.ofList (s.toList.map upper) with
  | "DEBUG" => some .debug
  | "INFO" => some .info
  | "WARNING" => some .warning
  | "ERROR" => some .error
  | "CRITICAL" => some .critical
  | _ => none

end Level

def Level.ofMethod? : String → Option Level
  | "debug" => some .debug
  | "info" | "msg" => some .info
  | "warning" | "warn" => some .warning
  | "error" | "exception" => some .error
  | "critical" | "fatal" => some .critical
  | _ => none

structure Event where
  level : Level
  name : String
  fields : List (String × Json) := []
  deriving Repr

/-- Sets a field: one of the same name is replaced where it stands. -/
def setField (name : String) (j : Json) : List (String × Json) → List (String × Json)
  | [] => [(name, j)]
  | f :: fs => if f.1 = name then (name, j) :: fs else f :: setField name j fs

def setFields (fields new : List (String × Json)) : List (String × Json) :=
  new.foldl (fun fs f => setField f.1 f.2 fs) fields

/-- The identifiers of a trace and of a span in it; both count only if neither is zero. -/
structure TraceContext where
  trace : Nat
  span : Nat
  deriving DecidableEq, Repr

def TraceContext.extend (c : TraceContext) (fields : List (String × Json)) :
    List (String × Json) :=
  if c.trace = 0 || c.span = 0 then fields
  else
    setFields fields
      [("trace_id", .str (String.ofList (Text.hexFrom 32 c.trace))),
        ("span_id", .str (String.ofList (Text.hexFrom 16 c.span)))]

namespace Event

/-- An event logged in one of the ways that there are. Logged as an exception it says so, unless
it says otherwise itself. -/
def logged? (method name : String) (fields : List (String × Json)) : Option Event :=
  let marked := method = "exception" && fields.all (·.1 ≠ "exc_info")
  (Level.ofMethod? method).map
    (⟨·, name, if marked then fields ++ [("exc_info", .bool true)] else fields⟩)

def noMethod (least : Level) (method : String) : String :=
  "'BoundLoggerFilteringAt" ++ least.name.capitalize ++ "' object has no attribute " ++
    Text.quoted method

def described (e : Event) (levelKey : String) : List (String × Json) :=
  setFields e.fields [("event", .str e.name), (levelKey, .str e.level.name)]

def isShown (least : Level) (e : Event) : Bool := least.rank ≤ e.level.rank

def recorded (timestamp : Json) (context : Option TraceContext) (e : Event) :
    List (String × Json) :=
  let fields := setField "event" (.str e.name) e.fields
  let fields := (context.map fun c => c.extend fields).getD fields
  setFields fields [("level", .str e.level.name), ("timestamp", timestamp)]

def line? (least : Level) (timestamp : Json) (context : Option TraceContext) (e : Event) :
    Option Json :=
  if e.isShown least then some (.obj (e.recorded timestamp context)) else none

end Event

end AuthMap
