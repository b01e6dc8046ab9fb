import AuthMap.Text.CodePoint
import AuthMap.Text.Parts

/-!
Resource names of the form `scheme:partition:service:region:account:resource`, and the kind of
principal they name. A name is cut at its first five colons only, so that the written form of
what was read is the text that was read.
-/

namespace AuthMap

inductive Kind where
  | role
  | user
  | unknown
  deriving DecidableEq, Repr

def Kind.name : Kind → String
  | .role => "role"
  | .user => "user"
  | .unknown => "unknown"

structure Arn where
  scheme : Text
  partition : Text
  service : Text
  region : Text
  account : Text
  resource : Text
  deriving DecidableEq, Repr

/-- The parts of a text cut at its first `n` colons, fewer if it has fewer. -/
def cutColons : Nat → Text → List Text
  | 0, t => [t]
  | n + 1, t =>
    match Text.cut (· = .char ':') t with
    | (part, none) => [part]
    | (part, some rest) => part :: cutColons n rest

namespace Arn

/-- Reads a name; `none` if it has fewer than five colons. -/
def ofText? (t : Text) : Option Arn :=
  match cutColons 5 t with
  | [scheme, partition, service, region, account, resource] =>
    some ⟨scheme, partition, service, region, account, resource⟩
  | _ => none

def toText (a : Arn) : Text :=
  a.scheme ++ .char ':' :: (a.partition ++ .char ':' :: (a.service ++ .char ':' ::
    (a.region ++ .char ':' :: (a.account ++ .char ':' :: a.resource))))

def endsType (p : Text.CodePoint) : Bool := p = .char '/' || p = .char ':'

def resourceType (a : Arn) : Text := (Text.cut endsType a.resource).1

/-- The resource without its type, empty if there is nothing but a type. -/
def resourceName (a : Arn) : Text := (Text.cut endsType a.resource).2.getD []

def kind (a : Arn) : Kind :=
  if a.resourceType = "role" then .role
  else if a.resourceType = "user" then .user
  else .unknown

def isRole (a : Arn) : Bool := a.kind = .role

def isUser (a : Arn) : Bool := a.kind = .user

/-- The kind that a text names; a text that is no name is of unknown kind. -/
def kindOf (t : Text) : Kind :=
  match ofText? t with
  | some a => a.kind
  | none => .unknown

end Arn

/-- A principal given to an operation: as text, or as a name already read. -/
inductive Principal where
  | text (raw : Text)
  | arn (a : Arn)
  deriving DecidableEq, Repr

def Principal.toText : Principal → Text
  | .text raw => raw
  | .arn a => a.toText

end AuthMap
