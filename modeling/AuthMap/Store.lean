import AuthMap.Codec
import AuthMap.Gateway

/-!
The mapping as it is held between a fetch and a save. An edit reads the stored texts, changes the
snapshot that they hold, and writes the texts it is about; the other texts are not looked at. An
edit that fails leaves what is held as it was.
-/

namespace AuthMap

namespace Resource

def identitySnapshot (r : Resource) : Except Trouble Snapshot := do
  pure { records := ← decodeRecords r.data }

def snapshot (r : Resource) : Except Trouble Snapshot := decodeSnapshot r.data

def identities (r : Resource) : Except Trouble (List Identity) := decodeRecords r.data

def get (p : Principal) (r : Resource) : Except Trouble (List Identity) := do
  pure ((← r.identitySnapshot).get p)

def find (p : Principal) (r : Resource) : Except Trouble (List Identity) := do
  StoreError.lift ((← r.identitySnapshot).find p)

def accounts (r : Resource) : Except Trouble (List Text) := decodeAccounts r.data

/-! ### Edits -/

def setIdentities (s : Snapshot) (r : Resource) : Work Resource := do
  pure (r.withData (← Work.ofStore (encodeIdentities s.records)))

def addRecord (record : Identity) (r : Resource) : Work Resource := do
  let held ← Work.ofExcept r.identitySnapshot
  let s ← Work.ofStore (held.addIdentity record)
  Work.emit .info "identity_added"
    [("arn", .str record.arn), ("username", .str record.username)]
  r.setIdentities s

def addIdentity (p : Principal) (username : Text) (groups : List Text) (r : Resource) :
    Work (Identity × Resource) := do
  let record ← Work.ofStore (newIdentity p username groups)
  pure (record, ← r.addRecord record)

def removed (p : Principal) (all : Bool) (s : Snapshot) : List Identity :=
  if all then s.get p else (s.get p).take 1

def emitRemoved (record : Identity) : Work Unit :=
  Work.emit .info "identity_removed"
    [("arn", .str record.arn), ("username", .str record.username),
      ("groups", Json.texts record.groups)]

def removeIdentity (p : Principal) (all : Bool) (r : Resource) : Work (Nat × Resource) := do
  let held ← Work.ofExcept r.identitySnapshot
  let s ← Work.ofStore (held.removeIdentity p all)
  let gone := removed p all held
  -- what goes is logged before the texts are written
  gone.forM emitRemoved
  pure (gone.length, ← r.setIdentities s)

def setAccounts (s : Snapshot) (r : Resource) : Resource := r.withData (encodeAccounts s.accounts)

def addAccount (account : Text) (r : Resource) : Work Resource := do
  let s : Snapshot := { accounts := ← Work.ofExcept r.accounts }
  let s := s.addAccount account
  Work.emit .info "account_added" [("account", .str account)]
  pure (r.setAccounts s)

def removeAccount (account : Text) (r : Resource) : Work Resource := do
  let s : Snapshot := { accounts := ← Work.ofExcept r.accounts }
  let s ← Work.ofStore (s.removeAccount account)
  Work.emit .info "account_removed" [("account", .str account)]
  pure (r.setAccounts s)

end Resource

/-! ### Node groups -/

namespace Gateway

def emitNodeGroup (event group : String) (arn : Text) : Work Unit :=
  Work.emit .debug event [("nodegroup", .str group), ("arn", .str arn)]

/-- Maps the role of a node group's instances, so that its nodes can join. -/
def addNodeGroup (g : Gateway) (arn : Text) (group : String) : Work Resource := do
  let r ← g.fetch
  let (_, r) ← r.addIdentity (.text arn) Identity.nodeUsername Identity.nodeGroups
  let r ← g.save r
  emitNodeGroup "nodegroup_mapping_saved" group arn
  pure r

def noInstanceRole (group : String) : StoreError :=
  .invalidIdentity ("Node group " ++ Text.quoted group ++ " instance role ARN is not set")

def removeNodeGroup (g : Gateway) (arn : Text) (group : String) : Work Resource := do
  if arn.isEmpty then Work.refuse (noInstanceRole group)
  let r ← g.fetch
  let (_, r) ← r.removeIdentity (.text arn) false
  let r ← g.save r
  emitNodeGroup "nodegroup_mapping_removed" group arn
  pure r

end Gateway

end AuthMap
