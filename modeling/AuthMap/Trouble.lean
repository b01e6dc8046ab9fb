import AuthMap.Error
import AuthMap.Json.Conversion
import AuthMap.Text.Quoted
import AuthMap.Validation
import AuthMap.Yaml.Token

/-! Everything that may keep a call from returning. -/

namespace AuthMap

/-- An exception from outside: an answer of the cluster that is an error, or anything else by
the name of its kind. -/
inductive Raised where
  | api (status : Option Int) (reason : Option String)
  /-- It may have a status and a reason of its own, which are shown but are no answer. -/
  | other (kind : String) (message : Option String) (status reason : Option String := none)
  deriving DecidableEq, Repr

namespace Raised

def kind : Raised → String
  | .api _ _ => "ApiException"
  | .other kind _ _ _ => kind

def shownStatus : Option Int → String
  | some n => toString n
  | none => "None"

def message : Raised → String
  | .api status reason =>
    "(" ++ shownStatus status ++ ")\nReason: " ++ reason.getD "None" ++ "\n"
  | .other kind message _ _ =>
    -- a missing key is shown in quotes
    (if kind = "KeyError" then message.map Text.quoted else message).getD ""

/-- The status of an answer. -/
def status : Raised → Option Int
  | .api status _ => status
  | .other _ _ _ _ => none

def statusText : Raised → Option String
  | .api status _ => status.map toString
  | .other _ _ status _ => status

def reason : Raised → Option String
  | .api _ reason | .other _ _ _ reason => reason

end Raised

inductive Trouble where
  | store (e : StoreError)
  | invalid (findings : List Finding)
  /-- A stored scalar that has no value. -/
  | value (f : Yaml.ValueFault)
  | shape (f : ShapeFault)
  /-- A path starts at the home of a user that is not known. -/
  | homeless
  | raised (e : Raised)
  deriving DecidableEq, Repr

namespace Trouble

def kind : Trouble → String
  | .store e => e.kind
  | .invalid _ => "ValidationError"
  | .value f => f.kind
  | .shape f => f.kind
  | .homeless => "RuntimeError"
  | .raised e => e.kind

def message : Trouble → String
  | .store e => e.message
  | .invalid fs => String.intercalate "\n" (fs.map Finding.text)
  | .value f => f.message
  | .shape f => f.message
  | .homeless => "Could not determine home directory."
  | .raised e => e.message

end Trouble

instance : Coe StoreError Trouble := ⟨.store⟩

def StoreError.lift (r : Except StoreError α) : Except Trouble α :=
  match r with
  | .ok a => .ok a
  | .error e => .error (.store e)

def ShapeFault.lift (r : Except ShapeFault α) : Except Trouble α :=
  match r with
  | .ok a => .ok a
  | .error f => .error (.shape f)

def Checked.lift (r : Checked α) : Except Trouble α :=
  match r with
  | .ok a => .ok a
  | .bad fs => .error (.invalid fs)

end AuthMap
