import AuthMap.Proofs.Store.Refinement

/-! A store that is in use holds one object and puts another in its place. That is the last thing
that an operation does, after all that may fail, so that a failure leaves the store as it was. -/

namespace AuthMap

/-- A gateway, and the object that is held beside it. -/
structure Store where
  gateway : Gateway
  held : Resource

/-- What is done with a store. What has been put into it stays there also when a failure follows. -/
abbrev Store.Operation (α : Type) := EStateM Trouble (Store × Session) α

namespace Store

variable {α β : Type}

def current : Operation Resource := fun s => .ok s.1.held s

def connection : Operation Gateway := fun s => .ok s.1.gateway s

def hold (r : Resource) : Operation Unit := fun s => .ok () ({ s.1 with held := r }, s.2)

/-- Work that does not touch the store. -/
def beside (w : Work α) : Operation α := fun s =>
  match w s.2 with
  | .ok a σ => .ok a (s.1, σ)
  | .error t σ => .error t (s.1, σ)

def setIdentities (s : Snapshot) : Operation Unit := do
  let r ← current
  hold (r.withData (← beside (Work.ofStore (encodeIdentities s.records))))

def addIdentity (p : Principal) (username : Text) (groups : List Text) : Operation Identity := do
  let record ← beside (Work.ofStore (newIdentity p username groups))
  let held ← beside (Work.ofExcept (← current).identitySnapshot)
  let s ← beside (Work.ofStore (held.addIdentity record))
  beside (Work.emit .info "identity_added"
    [("arn", .str record.arn), ("username", .str record.username)])
  setIdentities s
  pure record

def removeIdentity (p : Principal) (all : Bool) : Operation Nat := do
  let held ← beside (Work.ofExcept (← current).identitySnapshot)
  let s ← beside (Work.ofStore (held.removeIdentity p all))
  let gone := Resource.removed p all held
  beside (gone.forM Resource.emitRemoved)
  setIdentities s
  pure gone.length

def setAccounts (s : Snapshot) : Operation Unit := do
  hold ((← current).setAccounts s)

def addAccount (account : Text) : Operation Unit := do
  let s : Snapshot := { accounts := ← beside (Work.ofExcept (← current).accounts) }
  let s := s.addAccount account
  beside (Work.emit .info "account_added" [("account", .str account)])
  setAccounts s

def removeAccount (account : Text) : Operation Unit := do
  let s : Snapshot := { accounts := ← beside (Work.ofExcept (← current).accounts) }
  let s ← beside (Work.ofStore (s.removeAccount account))
  beside (Work.emit .info "account_removed" [("account", .str account)])
  setAccounts s

def perform (c : Call) : Operation Answer :=
  match c with
  | .addIdentity p username groups => do pure (.record (← addIdentity p username groups))
  | .removeIdentity p all => do pure (.count (← removeIdentity p all))
  | .addAccount account => do
    addAccount account
    pure .done
  | .removeAccount account => do
    removeAccount account
    pure .done
  | .identities => do pure (.records (← beside (Work.ofExcept (← current).identities)))
  | .get p => do pure (.records (← beside (Work.ofExcept ((← current).get p))))
  | .find p => do pure (.records (← beside (Work.ofExcept ((← current).find p))))
  | .accounts => do pure (.accounts (← beside (Work.ofExcept (← current).accounts)))

def save : Operation Resource := do
  hold (← beside ((← connection).save (← current)))
  current

/-- Work that gives an object to hold, which is put into the store when all of it has succeeded. -/
def replacing (w : Store → Work (α × Resource)) : Operation α := fun s =>
  match w s.1 s.2 with
  | .ok (a, r) σ => .ok a ({ s.1 with held := r }, σ)
  | .error t σ => .error t (s.1, σ)

/-! ### What comes before the assignment -/

theorem hold_bind_pure (r : Resource) (a : α) :
    (do hold r; pure a) = replacing fun _ => pure (a, r) := rfl

theorem hold_bind_current (r : Resource) :
    (do hold r; current) = replacing fun _ => pure (r, r) := rfl

theorem current_bind (v : Resource → Store → Work (α × Resource)) :
    (current >>= fun r => replacing (v r)) = replacing fun s => v s.held s := rfl

theorem connection_bind (v : Gateway → Store → Work (α × Resource)) :
    (connection >>= fun g => replacing (v g)) = replacing fun s => v s.gateway s := rfl

theorem beside_bind (w : Work β) (v : β → Store → Work (α × Resource)) :
    (beside w >>= fun b => replacing (v b)) = replacing fun s => w >>= fun b => v b s := by
  funext s
  simp only [bind, EStateM.bind, beside, replacing]
  cases w s.2 <;> rfl

theorem beside_bind_pure (w : Work β) (f : β → α) :
    (do pure (f (← beside w))) = replacing fun s => (do pure (f (← w), s.held)) := by
  funext s
  simp only [bind, EStateM.bind, beside, replacing]
  cases w s.2 <;> rfl

theorem replacing_bind_pure (w : Store → Work (β × Resource)) (f : β → α) :
    (do pure (f (← replacing w))) = replacing fun s => (do
      let (b, r) ← w s
      pure (f b, r)) := by
  funext s
  simp only [bind, EStateM.bind, replacing]
  cases w s.1 s.2 <;> rfl

/-! ### Calls and saves -/

theorem addIdentity_eq (p : Principal) (username : Text) (groups : List Text) :
    addIdentity p username groups = replacing fun s => s.held.addIdentity p username groups := by
  simp only [addIdentity, setIdentities, bind_assoc, hold_bind_pure, current_bind, beside_bind,
    Resource.addIdentity, Resource.addRecord, Resource.setIdentities, pure_bind]

theorem removeIdentity_eq (p : Principal) (all : Bool) :
    removeIdentity p all = replacing fun s => s.held.removeIdentity p all := by
  simp only [removeIdentity, setIdentities, bind_assoc, hold_bind_pure, current_bind, beside_bind,
    Resource.removeIdentity, Resource.setIdentities, pure_bind]

theorem addAccount_bind_pure (account : Text) (a : α) :
    (do addAccount account; pure a) =
      replacing fun s => (do pure (a, ← s.held.addAccount account)) := by
  simp only [addAccount, setAccounts, bind_assoc, hold_bind_pure, current_bind, beside_bind,
    Resource.addAccount, pure_bind]

theorem removeAccount_bind_pure (account : Text) (a : α) :
    (do removeAccount account; pure a) =
      replacing fun s => (do pure (a, ← s.held.removeAccount account)) := by
  simp only [removeAccount, setAccounts, bind_assoc, hold_bind_pure, current_bind, beside_bind,
    Resource.removeAccount, pure_bind]

theorem perform_eq_replacing (c : Call) : perform c = replacing fun s => c.perform s.held := by
  cases c with
  | addIdentity p username groups =>
    rw [perform, addIdentity_eq, replacing_bind_pure]
    rfl
  | removeIdentity p all =>
    rw [perform, removeIdentity_eq, replacing_bind_pure]
    rfl
  | addAccount account => exact addAccount_bind_pure account Answer.done
  | removeAccount account => exact removeAccount_bind_pure account Answer.done
  | identities | get | find | accounts =>
    simp only [perform, beside_bind_pure, current_bind]
    rfl

theorem save_eq_replacing :
    save = replacing fun s => (do
      let r ← s.gateway.save s.held
      pure (r, r)) := by
  simp only [save, hold_bind_current, beside_bind, current_bind, connection_bind]

/-- Whatever keeps the operation from returning, the store is then as it was. -/
def Operation.FailsInPlace (x : Operation α) : Prop :=
  ∀ s t s', x s = .error t s' → s'.1 = s.1

theorem failsInPlace_replacing (w : Store → Work (α × Resource)) : (replacing w).FailsInPlace := by
  intro s t s' h
  unfold replacing at h
  cases hw : w s.1 s.2 with
  | ok x σ =>
    rw [hw] at h
    cases h
  | error t σ =>
    rw [hw] at h
    cases h
    rfl

theorem failsInPlace_perform (c : Call) : (perform c).FailsInPlace := by
  rw [perform_eq_replacing]
  exact failsInPlace_replacing _

theorem failsInPlace_save : save.FailsInPlace := by
  rw [save_eq_replacing]
  exact failsInPlace_replacing _

end Store

end AuthMap
