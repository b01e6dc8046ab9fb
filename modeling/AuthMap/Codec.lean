import AuthMap.Snapshot
import AuthMap.Trouble
import AuthMap.Yaml.Printer

/-!
Snapshots as stored data: three texts, each a YAML list of its own. A text that is missing or
blank holds no entries. Identities are read from either list alike; they are written by kind.
-/

namespace AuthMap

open Yaml (Document Element)

/-! ### Reading -/

def loadEntries (key : String) (data : Data) : Except Trouble (Document × List Element) :=
  let nothing : Document := ⟨#[], 0⟩
  match (data.get? key).map fun text => Text.trim text.toList, data.get? key with
  | some (_ :: _), some text =>
    match Document.ofChars text.toList with
    | .error .malformed => .error (.store (.undecodable key .malformed))
    -- a scalar without a value is not taken for a fault of the notation
    | .error (.value f) => .error (.value f)
    | .ok none => .ok (nothing, [])
    | .ok (some d) =>
      match d.cell d.root with
      | .scalar .null => .ok (nothing, [])
      | .list items => .ok (d, items)
      | _ => .error (.store (.undecodable key (.notSequence (d.typeName d.root))))
  | _, _ => .ok (nothing, [])

def decodeIdentity (key : String) (d : Document) (e : Element × Nat) :
    Except Trouble Identity :=
  match Identity.ofElement d e.1 with
  | .ok r => .ok r
  | .error fault => .error (.store (.undecodable key (.entry e.2 fault)))

def decodeIdentities (key : String) (data : Data) : Except Trouble (List Identity) := do
  let (d, items) ← loadEntries key data
  items.zipIdx.mapM (decodeIdentity key d)

def decodeAccount (d : Document) (e : Element × Nat) : Except Trouble Text :=
  let notText := Except.error
    (Trouble.store (.undecodable accountsKey (.notText e.2 (d.elementType e.1))))
  match e.1 with
  | .cell i =>
    match d.cell i with
    | .scalar (.text t) => .ok t
    -- a number written without quotes is none
    | _ => notText
  | .pair _ _ => notText

def decodeAccounts (data : Data) : Except Trouble (List Text) := do
  let (d, items) ← loadEntries accountsKey data
  items.zipIdx.mapM (decodeAccount d)

def decodeRecords (data : Data) : Except Trouble (List Identity) := do
  let roles ← decodeIdentities rolesKey data
  let users ← decodeIdentities usersKey data
  pure (roles ++ users)

def decodeSnapshot (data : Data) : Except Trouble Snapshot := do
  let records ← decodeRecords data
  let accounts ← decodeAccounts data
  pure { records, accounts }

/-! ### Writing -/

def Identity.written (arnKey : String) (r : Identity) : List (String × Yaml.Field) :=
  [(arnKey, .text r.arn), ("username", .text r.username), ("groups", .texts r.groups)]

def encodeIdentity (key : String) (r : Identity) :
    Except StoreError (List (String × Yaml.Field)) :=
  match r.storedKey with
  | .ok arnKey => .ok (r.written arnKey)
  | .error e => .error (.unencodable key r.arn e.message)

def printIdentities (key : String) (rs : List Identity) : Except StoreError String := do
  pure (Yaml.printRecords (← rs.mapM (encodeIdentity key)))

/-- The texts of records: roles in one list, users in the other. -/
def encodeIdentities (rs : List Identity) : Except StoreError Data := do
  let (roles, users) ← split rs
  let roles ← printIdentities rolesKey roles
  let users ← printIdentities usersKey users
  pure [(rolesKey, roles), (usersKey, users)]

def encodeAccounts (accounts : List Text) : Data := [(accountsKey, Yaml.printTexts accounts)]

def encodeSnapshot (s : Snapshot) : Except StoreError Data := do
  pure ((← encodeIdentities s.records) ++ encodeAccounts s.accounts)

end AuthMap
