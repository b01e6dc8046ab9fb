import AuthMap.Proofs.Store.Edit

/-! The held texts behave as the snapshot that they hold: the same calls have the same answers and
the same errors, and leave texts that hold the same snapshot. -/

namespace AuthMap

inductive Call where
  | addIdentity (p : Principal) (username : Text) (groups : List Text)
  | removeIdentity (p : Principal) (all : Bool)
  | addAccount (account : Text)
  | removeAccount (account : Text)
  | identities
  | get (p : Principal)
  | find (p : Principal)
  | accounts
  deriving DecidableEq, Repr

inductive Answer where
  | record (r : Identity)
  | count (n : Nat)
  | records (rs : List Identity)
  | accounts (accounts : List Text)
  | done
  deriving DecidableEq, Repr

/-- How many records an answer counts. -/
def Answer.number : Answer → Nat
  | .count n => n
  | _ => 0

namespace Call

def perform (c : Call) (r : Resource) : Work (Answer × Resource) :=
  match c with
  | .addIdentity p username groups => do
    let (record, r) ← r.addIdentity p username groups
    pure (.record record, r)
  | .removeIdentity p all => do
    let (n, r) ← r.removeIdentity p all
    pure (.count n, r)
  | .addAccount account => do pure (.done, ← r.addAccount account)
  | .removeAccount account => do pure (.done, ← r.removeAccount account)
  | .identities => do pure (.records (← Work.ofExcept r.identities), r)
  | .get p => do pure (.records (← Work.ofExcept (r.get p)), r)
  | .find p => do pure (.records (← Work.ofExcept (r.find p)), r)
  | .accounts => do pure (.accounts (← Work.ofExcept r.accounts), r)

/-- Makes a call on a snapshot. A removal is answered by how many records fewer there are. -/
def apply (c : Call) (s : Snapshot) : Except StoreError (Answer × Snapshot) :=
  match c with
  | .addIdentity p username groups => do
    let record ← newIdentity p username groups
    pure (.record record, ← s.addIdentity record)
  | .removeIdentity p all => do
    let s' ← s.removeIdentity p all
    pure (.count (s.records.length - s'.records.length), s')
  | .addAccount account => pure (.done, s.addAccount account)
  | .removeAccount account => do pure (.done, ← s.removeAccount account)
  | .identities => pure (.records s.records, s)
  | .get p => pure (.records (s.get p), s)
  | .find p => do pure (.records (← s.find p), s)
  | .accounts => pure (.accounts s.accounts, s)

/-- Makes calls one after the other. Each leaves its answer or its error, and what is held then;
that is what was held before if the call has failed. -/
def performAll : List Call → Resource → Session → List (Except Trouble Answer × Resource)
  | [], _, _ => []
  | c :: cs, r, σ =>
    match c.perform r σ with
    | .ok (a, r') σ' => (.ok a, r') :: performAll cs r' σ'
    | .error t σ' => (.error t, r) :: performAll cs r σ'

/-- Makes calls one after the other on a snapshot, which a failing call leaves as it was. -/
def applyAll : List Call → Snapshot → List (Except StoreError Answer × Snapshot)
  | [], _ => []
  | c :: cs, s =>
    match c.apply s with
    | .ok (a, s') => (.ok a, s') :: applyAll cs s'
    | .error e => (.error e, s) :: applyAll cs s

/-! ### One call -/

/-- What a call does to texts that hold a snapshot: what it does to the snapshot. Nothing but the
data changes, and all that is done apart from that is to log. -/
def Refines (c : Call) (r : Resource) (s : Snapshot) : Prop :=
  match c.apply s with
  | .ok (a, s') => ∃ data es, c.perform r = Work.told (.ok ((a, { r with data }), es)) ∧
      Resource.snapshot { r with data } = .ok s'
  | .error e => c.perform r = Work.told (.error (.store e))

variable {c : Call} {r : Resource} {s : Snapshot}

theorem refines_of_ok (a : Answer) (es : List Event) {s' : Snapshot} {data : Data}
    (happly : c.apply s = .ok (a, s'))
    (hperform : c.perform r = Work.told (.ok ((a, { r with data }), es)))
    (hsnapshot : Resource.snapshot { r with data } = .ok s') : c.Refines r s := by
  rw [Refines, happly]
  exact ⟨data, es, hperform, hsnapshot⟩

theorem refines_of_error {e : StoreError} (happly : c.apply s = .error e)
    (hperform : c.perform r = Work.told (.error (.store e))) : c.Refines r s := by
  rw [Refines, happly]
  exact hperform

theorem refines_addIdentity (h : r.snapshot = .ok s) (p : Principal) (username : Text)
    (groups : List Text) : (addIdentity p username groups).Refines r s := by
  have hheld := Resource.identitySnapshot_of_snapshot h
  cases hn : newIdentity p username groups with
  | error e =>
    refine refines_of_error (e := e) ?_ ?_
    · rw [apply, hn]
      rfl
    · rw [perform, Resource.addIdentity_eq, hn]
      rfl
  | ok record =>
    -- the accounts are not looked at, so the half without them decides
    have hhalf := Snapshot.addIdentity_withoutAccounts record s
    cases hs : s.addIdentity record with
    | error e =>
      rw [hs] at hhalf
      refine refines_of_error (e := e) ?_ ?_
      · rw [apply, hn, Except.bind_ok, hs]
        rfl
      · rw [perform, Resource.addIdentity_eq, hn, hheld, StoreError.lift, Except.bind_ok,
          Except.bind_ok, hhalf]
        rfl
    | ok s' =>
      rw [hs] at hhalf
      obtain ⟨hp, haccounts⟩ := Snapshot.addIdentity_eq_ok hs
      refine refines_of_ok (.record record) [Resource.identityAdded record] ?_ ?_
        (Resource.snapshot_withIdentities h hp haccounts)
      · rw [apply, hn, Except.bind_ok, hs]
        rfl
      · rw [perform, Resource.addIdentity_eq, hn, hheld, StoreError.lift, Except.bind_ok,
          Except.bind_ok, hhalf]
        rfl

theorem refines_removeIdentity (h : r.snapshot = .ok s) (p : Principal) (all : Bool) :
    (removeIdentity p all).Refines r s := by
  have hheld := Resource.identitySnapshot_of_snapshot h
  have hhalf := Snapshot.removeIdentity_withoutAccounts p all s
  cases hs : s.removeIdentity p all with
  | error e =>
    rw [hs] at hhalf
    refine refines_of_error (e := e) ?_ ?_
    · rw [apply, hs]
      rfl
    · rw [perform, Resource.removeIdentity_eq, hheld, Except.bind_ok, hhalf]
      rfl
  | ok s' =>
    rw [hs] at hhalf
    obtain ⟨hp, haccounts⟩ := Snapshot.removeIdentity_eq_ok hs
    have hcount : (Resource.removed p all s).length = s.records.length - s'.records.length :=
      (Nat.sub_eq_of_eq_add' (Snapshot.length_removed hs).symm).symm
    refine refines_of_ok (.count (s.records.length - s'.records.length))
      ((Resource.removed p all s).map Resource.identityRemoved) ?_ ?_
      (Resource.snapshot_withIdentities h hp haccounts)
    · rw [apply, hs]
      rfl
    · rw [perform, Resource.removeIdentity_eq, hheld, Except.bind_ok, hhalf, ← hcount]
      rfl

theorem refines_addAccount (h : r.snapshot = .ok s) (account : Text) :
    (addAccount account).Refines r s := by
  have haccounts := (Resource.snapshot_eq_ok.mp h).2
  refine refines_of_ok .done [Resource.accountAdded account] rfl ?_
    (Resource.snapshot_setAccounts h rfl)
  rw [perform, Resource.addAccount_eq, haccounts]
  rfl

theorem refines_removeAccount (h : r.snapshot = .ok s) (account : Text) :
    (removeAccount account).Refines r s := by
  have haccounts := (Resource.snapshot_eq_ok.mp h).2
  have hhalf : Snapshot.removeAccount account { accounts := s.accounts } =
      (s.removeAccount account).map Snapshot.withoutRecords :=
    Snapshot.removeAccount_withoutRecords account s
  cases hs : s.removeAccount account with
  | error e =>
    rw [hs] at hhalf
    refine refines_of_error (e := e) ?_ ?_
    · rw [apply, hs]
      rfl
    · rw [perform, Resource.removeAccount_eq, haccounts, Except.bind_ok]
      dsimp only
      rw [hhalf]
      rfl
  | ok s' =>
    rw [hs] at hhalf
    have hrecords := Snapshot.removeAccount_eq_ok hs
    refine refines_of_ok .done [Resource.accountRemoved account] ?_ ?_
      (Resource.snapshot_setAccounts h hrecords)
    · rw [apply, hs]
      rfl
    · rw [perform, Resource.removeAccount_eq, haccounts, Except.bind_ok]
      dsimp only
      rw [hhalf]
      rfl

theorem refines_of_snapshot (h : r.snapshot = .ok s) (c : Call) : c.Refines r s := by
  have hheld := Resource.identitySnapshot_of_snapshot h
  obtain ⟨hrecords, haccounts⟩ := Resource.snapshot_eq_ok.mp h
  cases c with
  | addIdentity p username groups => exact refines_addIdentity h p username groups
  | removeIdentity p all => exact refines_removeIdentity h p all
  | addAccount account => exact refines_addAccount h account
  | removeAccount account => exact refines_removeAccount h account
  | identities =>
    refine refines_of_ok (.records s.records) [] rfl ?_ h
    rw [perform, hrecords]
    exact Work.pure_eq _
  | get p =>
    refine refines_of_ok (.records (s.get p)) [] rfl ?_ h
    rw [perform, Resource.get, hheld]
    exact Work.pure_eq _
  | find p =>
    have hfind : s.withoutAccounts.find p = s.find p := rfl
    cases hs : s.find p with
    | error e =>
      refine refines_of_error (e := e) ?_ ?_
      · rw [apply, hs]
        rfl
      · rw [perform, Resource.find, hheld, Except.bind_ok, hfind, hs]
        rfl
    | ok rs =>
      refine refines_of_ok (.records rs) [] ?_ ?_ h
      · rw [apply, hs]
        rfl
      · rw [perform, Resource.find, hheld, Except.bind_ok, hfind, hs]
        exact Work.pure_eq _
  | accounts =>
    refine refines_of_ok (.accounts s.accounts) [] rfl ?_ h
    rw [perform, haccounts]
    exact Work.pure_eq _

/-! ### Calls one after the other -/

/-- Texts that hold a snapshot and the snapshot itself go through the same calls with the same
answers and errors, and what is held after each call is the same. -/
theorem performAll_eq_applyAll (cs : List Call) (r : Resource) (s : Snapshot) (σ : Session)
    (h : decodeSnapshot r.data = .ok s) :
    (performAll cs r σ).map (fun step => (step.1, step.2.snapshot)) =
      (applyAll cs s).map fun step => (StoreError.lift step.1, .ok step.2) := by
  -- after each call the held texts hold the snapshot that the others start from
  induction cs generalizing r s σ with
  | nil => rfl
  | cons c cs ih =>
    have hstep := refines_of_snapshot h c
    unfold Refines at hstep
    unfold performAll applyAll
    cases happly : c.apply s with
    | ok answered =>
      obtain ⟨a, s'⟩ := answered
      rw [happly] at hstep
      obtain ⟨data, es, hperform, hsnapshot⟩ := hstep
      rw [hperform]
      simp only [Work.told, List.map_cons, hsnapshot, ih _ _ _ hsnapshot]
      rfl
    | error e =>
      rw [happly] at hstep
      rw [hstep]
      have hr : r.snapshot = .ok s := h
      simp only [Work.told, List.map_cons, hr, ih _ _ _ h]
      rfl

/-- A role and a user are each filed in the other's list. The first edit puts them right, and a
removal that fails between two that succeed changes nothing. -/
theorem performAll_eq_applyAll_misfiled :
    let user : Identity := ⟨"arn:aws:iam::1:user/ann", "ann", []⟩
    let role : Identity := ⟨"arn:aws:iam::1:role/ops", "ops", ["system:masters"]⟩
    let r : Resource := { data := identityTexts [user] [role] ++ encodeAccounts ["2", "1"] }
    let cs := [addIdentity (.text user.arn) "bob" [], removeIdentity (.text "bob") false,
      removeIdentity (.text user.arn) true, addAccount "1"]
    decodeSnapshot r.data = .ok ⟨[user, role], ["2", "1"]⟩ ∧
      (performAll cs r {}).map (fun step => (step.1, step.2.snapshot)) =
        [(.ok (.record ⟨user.arn, "bob", []⟩),
            .ok ⟨[role, user, ⟨user.arn, "bob", []⟩], ["2", "1"]⟩),
          (.error (.store (.identityNotFound "bob")),
            .ok ⟨[role, user, ⟨user.arn, "bob", []⟩], ["2", "1"]⟩),
          (.ok (.count 2), .ok ⟨[role], ["2", "1"]⟩),
          (.ok .done, .ok ⟨[role], ["1", "2"]⟩)] := by
  intro user role r cs
  have hrecords : decodeRecords r.data = .ok ([user] ++ [role]) := decodeRecords_of_texts rfl rfl
  have haccounts : decodeAccounts r.data = .ok ["2", "1"] := decodeAccounts_printTexts rfl
  have hsnapshot : r.snapshot = .ok ⟨[user, role], ["2", "1"]⟩ :=
    Resource.snapshot_eq_ok.mpr ⟨hrecords, haccounts⟩
  refine ⟨hsnapshot, ?_⟩
  rw [performAll_eq_applyAll cs r _ {} hsnapshot]
  rfl

end Call

end AuthMap
