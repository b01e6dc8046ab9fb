import AuthMap.Trouble
import AuthMap.Yaml.Document

/-!
Identity records: one principal, the name it goes by in the cluster, and its groups. A record is
stored as a mapping under the key `rolearn` or `userarn`, by the kind of its principal; when it
is read either key will do.
-/

namespace AuthMap

structure Identity where
  arn : Text
  username : Text := []
  groups : List Text := []
  deriving DecidableEq, Repr, Inhabited

namespace Identity

def mastersGroup : Text := "system:masters"

def nodeUsername : Text := "system:node:\x7b\x7bEC2PrivateDNSName\x7d\x7d"

def nodeGroups : List Text := ["system:bootstrappers", "system:nodes"]

def kind (r : Identity) : Kind := Arn.kindOf r.arn

def principal (r : Identity) : Except StoreError Arn := Arn.parse r.arn

/-- Whether a record is for a principal: their texts are the same. -/
def isFor (p : Principal) (r : Identity) : Bool := r.arn = p.toText

def arnKey : Kind → String
  | .role => "rolearn"
  | _ => "userarn"

def fields (key : String) (r : Identity) : List (String × Json) :=
  [(key, .str r.arn), ("username", .str r.username), ("groups", Json.texts r.groups)]

def toJson (r : Identity) : Json := .obj (r.fields "arn")

def storedKey (r : Identity) : Except StoreError String := do
  pure (arnKey (← (← r.principal).requireKind))

def toMapping (r : Identity) : Except StoreError Json := do
  pure (.obj (r.fields (← r.storedKey)))

end Identity

def newIdentity (p : Principal) (username : Text) (groups : List Text) :
    Except StoreError Identity := do
  let a ←
    match p with
    | .text raw => Arn.parse raw
    | .arn a => pure a
  let _ ← a.requireKind
  pure ⟨a.toText, username, groups⟩

/-! ### Records from plain fields -/

namespace Identity

/-- A record from its fields; the principal may be anything. -/
def ofFields (fields : List (String × Json)) : Checked Identity :=
  Identity.mk <$> Json.required Json.asText "arn" fields
    <*> Json.fieldOr [] Json.asText "username" fields
    <*> Json.fieldOr [] Json.asTexts "groups" fields

/-- A record for a principal that is a role or a user, from a user name and groups that still
have to be checked. -/
def create (p : Principal) (username groups : Json) : Except Trouble Identity := do
  let r ← StoreError.lift (newIdentity p [] [])
  let groups ← ShapeFault.lift groups.elements
  Checked.lift
    (ofFields [("arn", .str r.arn), ("username", username), ("groups", .arr groups)])

end Identity

/-! ### Records from stored entries -/

namespace Identity

open Yaml (Document Element)

/-- A text: a string, or bytes that encode one. -/
def textAt (d : Document) (i : Nat) : Except FieldFault Text :=
  match d.cell i with
  | .scalar (.text t) => .ok t
  | .scalar (.bytes bs) =>
    match String.fromUTF8? ⟨bs.toArray⟩ with
    | some s => .ok s
    | none => .error .notUnicode
  | _ => .error .notText

def elementText (d : Document) : Element → Except FieldFault Text
  | .cell i => textAt d i
  | .pair _ _ => .error .notText

/-- A sequence or a set of texts. The members of a set are taken as they are written, which is one
order among others: what is read means the same in any. -/
def textsAt (d : Document) (i : Nat) : Except FieldFault (List Text) :=
  match d.cell i with
  | .list items => items.mapM (elementText d)
  | .set members => members.mapM (textAt d)
  | _ => .error .notSequence

def readFields (d : Document) (arn : Nat) (username groups : Option Nat) :
    Except FieldFault Identity := do
  let arn ← textAt d arn
  let username ← username.elim (pure []) (textAt d)
  let groups ← groups.elim (pure []) (textsAt d)
  pure ⟨arn, username, groups⟩

def ofEntries (d : Document) (es : List (Nat × Nat)) : Except EntryFault Identity :=
  -- null counts as absent
  match (d.lookupSome "rolearn" es).or (d.lookupSome "userarn" es) with
  | none => .error .noArn
  | some i =>
    match readFields d i (d.lookupSome "username" es) (d.lookupSome "groups" es) with
    | .ok r => .ok r
    | .error fault =>
      match d.shown? i with
      | some shown => .error (.field shown fault)
      | none => .error .hugeArn

def ofElement (d : Document) : Element → Except EntryFault Identity
  | .pair _ _ => .error (.notMapping "tuple")
  | .cell i =>
    match d.cell i with
    | .map es => ofEntries d es
    | _ => .error (.notMapping (d.typeName i))

def ofJson (j : Json) : Except EntryFault Identity :=
  let d := Document.ofJson j
  ofElement d (.cell d.root)

end Identity

end AuthMap
