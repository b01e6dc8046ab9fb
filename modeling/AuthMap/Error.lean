import AuthMap.Arn
import AuthMap.Text.Quoted

/-! The errors of the mapping store: each is a cause, and `StoreError.message` gives all of them
their wording. -/

namespace AuthMap

open Text (quoted)

inductive FieldFault where
  | notText
  | notUnicode
  | notSequence
  deriving DecidableEq, Repr

def FieldFault.message : FieldFault → String
  | .notText => "Input should be a valid string"
  | .notUnicode =>
    "Input should be a valid string, unable to parse raw data as a unicode string"
  | .notSequence => "Input should be a valid tuple"

inductive EntryFault where
  | notMapping (got : String)
  | noArn
  | field (arn : String) (fault : FieldFault)
  /-- The name that an entry holds has an integer too long to show. -/
  | hugeArn
  deriving DecidableEq, Repr

def EntryFault.message : EntryFault → String
  | .notMapping got => "expected a mapping, got " ++ got
  | .noArn => "missing arn"
  | .field arn fault => "invalid entry for " ++ arn ++ ": " ++ fault.message
  | .hugeArn =>
    "Exceeds the limit (4300 digits) for integer string conversion; " ++
      "use sys.set_int_max_str_digits() to increase the limit"

inductive DecodeReason where
  | malformed
  | notSequence (got : String)
  | entry (index : Nat) (fault : EntryFault)
  | notText (index : Nat) (got : String)
  | other (text : String)
  deriving DecidableEq, Repr

def DecodeReason.message : DecodeReason → String
  | .malformed => "<yaml error>"
  | .notSequence got => "expected a sequence, got " ++ got
  | .entry index fault => "entry " ++ toString index ++ ": " ++ fault.message
  | .notText index got => "entry " ++ toString index ++ ": expected a string, got " ++ got
  | .other text => text

structure Failure where
  operation : String
  name : String := ""
  ns : String := ""
  reason : String := ""
  status : Option Int := none
  deriving DecidableEq, Repr

def Failure.message (f : Failure) : String :=
  let object :=
    if f.name = "" then ""
    else if f.ns = "" then " '" ++ f.name ++ "'"
    else " '" ++ f.ns ++ "/" ++ f.name ++ "'"
  let status := match f.status with
    | some n => " (HTTP " ++ toString n ++ ")"
    | none => ""
  let reason := if f.reason = "" then "" else ": " ++ f.reason
  "Failed to " ++ f.operation ++ " auth ConfigMap" ++ object ++ status ++ reason

inductive StoreError where
  | other (text : String)
  | invalidIdentity (text : String)
  | malformedArn (arn : Text)
  | unclassifiedArn (arn resourceType : Text)
  | undecodable (key : String) (reason : DecodeReason)
  | unencodable (key : String) (arn : Text) (reason : String)
  | notFound (text : String)
  | identityNotFound (arn : Text)
  | accountNotFound (account : Text)
  | persistence (f : Failure)
  | accessDenied (f : Failure)
  deriving DecidableEq, Repr

def StoreError.message : StoreError → String
  | .other text => text
  | .invalidIdentity text => text
  | .malformedArn arn =>
    "Malformed ARN " ++ quoted arn ++ ": expected at least 6 colon-separated segments"
  | .unclassifiedArn arn resourceType =>
    "ARN " ++ quoted arn ++ " has resource type " ++ quoted resourceType ++
      "; expected 'role' or 'user'"
  | .undecodable key reason => "Unmarshalling " ++ quoted key ++ ": " ++ reason.message
  | .unencodable key arn reason =>
    "Marshalling " ++ quoted key ++ ": " ++ reason ++
      if arn.isEmpty then "" else " (arn=" ++ quoted arn ++ ")"
  | .notFound text => text
  | .identityNotFound arn => "Identity ARN " ++ quoted arn ++ " not found in auth ConfigMap"
  | .accountNotFound account => "Account " ++ quoted account ++ " not found in auth ConfigMap"
  | .persistence f => f.message
  | .accessDenied f => f.message

def StoreError.kind : StoreError → String
  | .other _ => "AuthMapError"
  | .invalidIdentity _ => "IdentityValidationError"
  | .malformedArn _ => "ARNParseError"
  | .unclassifiedArn _ _ => "ARNClassificationError"
  | .undecodable _ _ => "MappingDecodeError"
  | .unencodable _ _ _ => "MappingEncodeError"
  | .notFound _ => "MappingNotFoundError"
  | .identityNotFound _ => "IdentityNotFoundError"
  | .accountNotFound _ => "AccountNotFoundError"
  | .persistence _ => "MappingPersistenceError"
  | .accessDenied _ => "MappingAccessDeniedError"

def StoreError.reason : StoreError → Option String
  | .undecodable _ reason => some reason.message
  | .unencodable _ _ reason => some reason
  | .persistence f | .accessDenied f => some f.reason
  | _ => none

def StoreError.status : StoreError → Option Int
  | .persistence f | .accessDenied f => f.status
  | _ => none

namespace Arn

def parse (t : Text) : Except StoreError Arn :=
  match ofText? t with
  | some a => .ok a
  | none => .error (.malformedArn t)

def requireKind (a : Arn) : Except StoreError Kind :=
  match a.kind with
  | .unknown => .error (.unclassifiedArn a.toText a.resourceType)
  | kind => .ok kind

end Arn

end AuthMap
