import AuthMap.Data
import AuthMap.Identity

/-!
The mappings of a cluster as values: identity records and accounts. Every edit gives a new
snapshot. An edit of the identities puts roles before users again; an account is added to the
accounts in ascending order, each once.
-/

namespace AuthMap

/-- The records of roles and those of users, each in order. Every record must be one of the
two. -/
def split (rs : List Identity) : Except StoreError (List Identity × List Identity) :=
  match rs.find? fun r => r.kind = .unknown with
  | some r =>
    .error (.unencodable (rolesKey ++ "/" ++ usersKey) r.arn
      "identity is neither an IAM role nor an IAM user")
  | none => .ok (rs.filter fun r => r.kind = .role, rs.filter fun r => r.kind = .user)

def insertAscending (x : Text) : List Text → List Text
  | [] => [x]
  | y :: ys => if x = y then y :: ys else if x < y then x :: y :: ys else y :: insertAscending x ys

def ascending (xs : List Text) : List Text := xs.foldr insertAscending []

structure Snapshot where
  records : List Identity := []
  accounts : List Text := []
  deriving DecidableEq, Repr, Inhabited

namespace Snapshot

def ofFields (records : List Identity) (fields : List (String × Json)) : Checked Snapshot :=
  Snapshot.mk records <$> Json.fieldOr [] Json.asTexts "accounts" fields

def roles (s : Snapshot) : List Identity := s.records.filter fun r => r.kind = .role

def users (s : Snapshot) : List Identity := s.records.filter fun r => r.kind = .user

def get (p : Principal) (s : Snapshot) : List Identity := s.records.filter (·.isFor p)

def find (p : Principal) (s : Snapshot) : Except StoreError (List Identity) :=
  if (s.get p).isEmpty then .error (.identityNotFound p.toText) else .ok (s.get p)

def withRecords (rs : List Identity) (s : Snapshot) : Except StoreError Snapshot := do
  let (roles, users) ← split rs
  pure { s with records := roles ++ users }

def addIdentity (r : Identity) (s : Snapshot) : Except StoreError Snapshot :=
  s.withRecords (s.records ++ [r])

/-- Removes the first record for a principal, which must be there, or all of them. -/
def removeIdentity (p : Principal) (all : Bool) (s : Snapshot) : Except StoreError Snapshot :=
  if all then s.withRecords (s.records.filter fun r => !r.isFor p)
  else if s.records.any (·.isFor p) then s.withRecords (s.records.eraseP (·.isFor p))
  else .error (.identityNotFound p.toText)

def addAccount (account : Text) (s : Snapshot) : Snapshot :=
  { s with accounts := ascending (account :: s.accounts) }

/-- Removes every occurrence of an account, which must be there. -/
def removeAccount (account : Text) (s : Snapshot) : Except StoreError Snapshot :=
  if s.accounts.contains account then
    .ok { s with accounts := s.accounts.filter (· ≠ account) }
  else .error (.accountNotFound account)

end Snapshot

end AuthMap
