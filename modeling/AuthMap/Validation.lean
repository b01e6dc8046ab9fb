import AuthMap.Json.Shown

/-! Checks of plain values that are to become fields of a record. All findings about all fields
are gathered, in the order of the fields. -/

namespace AuthMap

inductive Violation where
  | notText
  | notUnicode
  | notList
  | notDictionary
  | missing
  | unknown
  | tooShort
  | tooLong (most : Nat)
  | mismatch (pattern : String)
  | refused (text : String)
  deriving DecidableEq, Repr

namespace Violation

def type : Violation → String
  | .notText => "string_type"
  | .notUnicode => "string_unicode"
  | .notList => "tuple_type"
  | .notDictionary => "dict_type"
  | .missing => "missing"
  | .unknown => "extra_forbidden"
  | .tooShort => "string_too_short"
  | .tooLong _ => "string_too_long"
  | .mismatch _ => "string_pattern_mismatch"
  | .refused _ => "value_error"

def message : Violation → String
  | .notText => "Input should be a valid string"
  | .notUnicode =>
    "Input should be a valid string, unable to parse raw data as a unicode string"
  | .notList => "Input should be a valid tuple"
  | .notDictionary => "Input should be a valid dictionary"
  | .missing => "Field required"
  | .unknown => "Extra inputs are not permitted"
  | .tooShort => "String should have at least 1 character"
  | .tooLong most => "String should have at most " ++ toString most ++ " characters"
  | .mismatch pattern => "String should match pattern '" ++ pattern ++ "'"
  | .refused text => "Value error, " ++ text

end Violation

/-- A violation and where it is: a field, and a place within it. -/
structure Finding where
  loc : List String
  violation : Violation
  deriving DecidableEq, Repr

def Finding.text (f : Finding) : String :=
  String.intercalate "." f.loc ++ ": " ++ f.violation.message

inductive Checked (α : Type) where
  | ok (a : α)
  | bad (findings : List Finding)

namespace Checked

def fail (loc : List String) (v : Violation) : Checked α := .bad [⟨loc, v⟩]

def findings : Checked α → List Finding
  | .ok _ => []
  | .bad fs => fs

/-- Checks in a row gather their findings. -/
instance : Applicative Checked where
  pure := .ok
  seq f x :=
    match f, x () with
    | .ok f, .ok a => .ok (f a)
    | f, x => .bad (f.findings ++ x.findings)

def andThen (x : Checked α) (check : α → Checked β) : Checked β :=
  match x with
  | .ok a => check a
  | .bad fs => .bad fs

def all (check : α → Checked β) : List α → Checked (List β)
  | [] => .ok []
  | a :: as => List.cons <$> check a <*> all check as

end Checked

/-! ### Checks of one value -/

namespace Json

def asText (loc : List String) : Json → Checked Text
  | .str t => .ok t
  | _ => .fail loc .notText

def asString (loc : List String) (j : Json) : Checked String :=
  (j.asText loc).andThen fun t => t.string?.elim (.fail loc .notUnicode) .ok

def asOrNull (check : List String → Json → Checked α) (loc : List String) :
    Json → Checked (Option α)
  | .null => .ok none
  | j => some <$> check loc j

def asTextOrNull : List String → Json → Checked (Option Text) := asOrNull asText

def asStringOrNull (loc : List String) (j : Json) : Checked (Option String) :=
  asOrNull asString loc j

def asList (loc : List String) : Json → Checked (List Json)
  | .arr items => .ok items
  | _ => .fail loc .notList

def asListOf (check : List String → Json → Checked α) (loc : List String) (j : Json) :
    Checked (List α) :=
  (j.asList loc).andThen fun items =>
    Checked.all (fun e => check (loc ++ [toString e.2]) e.1) items.zipIdx

def asTexts : List String → Json → Checked (List Text) := asListOf asText

def asStrings : List String → Json → Checked (List String) := asListOf asString

def asDictionary (loc : List String) : Json → Checked (List (String × String))
  | .obj fields => Checked.all (fun f => (f.1, ·) <$> f.2.asString (loc ++ [f.1])) fields
  | _ => .fail loc .notDictionary

def keyName : Json → String
  | .bool b => if b then "1" else "0"
  | j => j.shown

/-- A dictionary of whole texts from pairs, whose keys may be anything. -/
def asStringPairs (loc : List String) (ps : List (Json × Json)) :
    Checked (List (String × String)) :=
  Checked.all
    (fun p => Prod.mk <$> p.1.asString (loc ++ [p.1.keyName, "[key]"])
      <*> p.2.asString (loc ++ [p.1.keyName]))
    ps

/-- A field by its name: checked if it is there, a default if not. -/
def fieldOr (default : α) (check : List String → Json → Checked α) (name : String)
    (fields : List (String × Json)) : Checked α :=
  match field? name fields with
  | some j => check [name] j
  | none => .ok default

def required (check : List String → Json → Checked α) (name : String)
    (fields : List (String × Json)) : Checked α :=
  match field? name fields with
  | some j => check [name] j
  | none => .fail [name] .missing

def onlyFields (names : List String) (fields : List (String × Json)) : Checked Unit :=
  match fields.filter fun f => !names.contains f.1 with
  | [] => .ok ()
  | fs => .bad (fs.map fun f => ⟨[f.1], .unknown⟩)

end Json

end AuthMap
