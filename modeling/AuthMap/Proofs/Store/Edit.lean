import AuthMap.Proofs.Codec.RoundTrip
import AuthMap.Proofs.Session
import AuthMap.Store

/-! What an edit does: it fails and does nothing, or it writes texts that hold the edited snapshot.
The texts that it is not about are left alone. -/

namespace AuthMap

/-! ### Frames -/

theorem Data.get?_update_of_ne {key : String} {new : Data} (h : ∀ e ∈ new, e.1 ≠ key) (d : Data) :
    (d.update new).get? key = d.get? key := by
  induction new generalizing d with
  | nil => rfl
  | cons e new ih =>
    have he : key ≠ e.1 := (h e List.mem_cons_self).symm
    have hset : (Data.set e.1 e.2 d).get? key = d.get? key := by rw [Data.get?_set, if_neg he]
    rw [← hset]
    exact ih (fun x hx => h x (List.mem_cons_of_mem _ hx)) _

theorem loadEntries_congr {key : String} {d d' : Data} (h : d.get? key = d'.get? key) :
    loadEntries key d = loadEntries key d' := by simp only [loadEntries, h]

theorem decodeIdentities_congr {key : String} {d d' : Data} (h : d.get? key = d'.get? key) :
    decodeIdentities key d = decodeIdentities key d' := by
  simp only [decodeIdentities, loadEntries_congr h]

theorem decodeRecords_congr {d d' : Data} (hroles : d.get? rolesKey = d'.get? rolesKey)
    (husers : d.get? usersKey = d'.get? usersKey) : decodeRecords d = decodeRecords d' := by
  simp only [decodeRecords, decodeIdentities_congr hroles, decodeIdentities_congr husers]

theorem decodeAccounts_congr {d d' : Data} (h : d.get? accountsKey = d'.get? accountsKey) :
    decodeAccounts d = decodeAccounts d' := by simp only [decodeAccounts, loadEntries_congr h]

/-! ### Snapshots with only one half -/

namespace Snapshot

def withoutAccounts (s : Snapshot) : Snapshot := { records := s.records }

def withoutRecords (s : Snapshot) : Snapshot := { accounts := s.accounts }

theorem withRecords_withoutAccounts (rs : List Identity) (s : Snapshot) :
    s.withoutAccounts.withRecords rs = (s.withRecords rs).map withoutAccounts := by
  simp only [withRecords, bind, Except.bind, Except.map]
  cases split rs <;> rfl

theorem addIdentity_withoutAccounts (r : Identity) (s : Snapshot) :
    s.withoutAccounts.addIdentity r = (s.addIdentity r).map withoutAccounts :=
  withRecords_withoutAccounts _ s

theorem removeIdentity_withoutAccounts (p : Principal) (all : Bool) (s : Snapshot) :
    s.withoutAccounts.removeIdentity p all = (s.removeIdentity p all).map withoutAccounts := by
  cases all with
  | true => exact withRecords_withoutAccounts _ s
  | false =>
    by_cases h : s.records.any (·.isFor p)
    · simp only [removeIdentity, Bool.false_eq_true, if_false, withoutAccounts, if_pos h]
      exact (if_pos h).trans (withRecords_withoutAccounts _ s)
    · simp only [removeIdentity, Bool.false_eq_true, if_false, withoutAccounts, if_neg h]
      exact if_neg h

theorem removeAccount_withoutRecords (account : Text) (s : Snapshot) :
    s.withoutRecords.removeAccount account = (s.removeAccount account).map withoutRecords := by
  by_cases h : s.accounts.contains account
  · simp only [removeAccount, withoutRecords, if_pos h]
    exact if_pos h
  · simp only [removeAccount, withoutRecords, if_neg h]
    exact if_neg h

/-! ### Records that are replaced -/

variable {rs : List Identity} {s s' : Snapshot}

theorem classified_of_split {halves : List Identity × List Identity}
    (h : split s.records = .ok halves) : s.Classified := by
  unfold split at h
  split at h
  · cases h
  · next hnone =>
    intro r hr
    simpa using List.find?_eq_none.mp hnone r hr

theorem withRecords_of_classified (h : Classified { s with records := rs }) :
    s.withRecords rs = .ok (partitioned { s with records := rs }) := by
  have hsplit := split_of_classified h
  simp only [withRecords, hsplit, bind, Except.bind]
  rfl

/-- Records are replaced when each is a role or a user, and then roles come first. -/
theorem withRecords_eq_ok (h : s.withRecords rs = .ok s') :
    Classified { s with records := rs } ∧ s' = partitioned { s with records := rs } := by
  have hc : Classified { s with records := rs } := by
    cases hs : split rs with
    | error e => simp [withRecords, hs, bind, Except.bind] at h
    | ok halves => exact classified_of_split (s := { s with records := rs }) hs
  rw [withRecords_of_classified hc] at h
  exact ⟨hc, (Except.ok.inj h).symm⟩

theorem addIdentity_eq_ok {r : Identity} (h : s.addIdentity r = .ok s') :
    s'.Partitioned ∧ s'.accounts = s.accounts := by
  obtain ⟨-, rfl⟩ := withRecords_eq_ok h
  exact ⟨partitioned_partitioned _, rfl⟩

theorem removeIdentity_eq_ok {p : Principal} {all : Bool} (h : s.removeIdentity p all = .ok s') :
    s'.Partitioned ∧ s'.accounts = s.accounts := by
  unfold removeIdentity at h
  split at h
  · obtain ⟨-, rfl⟩ := withRecords_eq_ok h
    exact ⟨partitioned_partitioned _, rfl⟩
  · split at h
    · obtain ⟨-, rfl⟩ := withRecords_eq_ok h
      exact ⟨partitioned_partitioned _, rfl⟩
    · cases h

theorem removeAccount_eq_ok {account : Text} (h : s.removeAccount account = .ok s') :
    s'.records = s.records := by
  unfold removeAccount at h
  split at h
  · rw [← Except.ok.inj h]
  · cases h

/-- Whoever is no role is a user, so that none is lost. -/
theorem perm_partitioned (h : s.Classified) : (s.roles ++ s.users).Perm s.records := by
  have husers : s.users = s.records.filter fun r => !decide (r.kind = .role) := by
    refine List.filter_congr fun r hr => ?_
    have hr := h r hr
    cases hk : r.kind <;> simp_all
  rw [husers, roles]
  exact List.filter_append_perm _ s.records

theorem length_partitioned (h : s.Classified) :
    s.partitioned.records.length = s.records.length := (perm_partitioned h).length_eq

/-- The records that a removal takes away are those that are missing afterwards. -/
theorem length_removed {p : Principal} {all : Bool} (h : s.removeIdentity p all = .ok s') :
    s'.records.length + (Resource.removed p all s).length = s.records.length := by
  cases all with
  | true =>
    obtain ⟨hc, rfl⟩ := withRecords_eq_ok (s := s) h
    have hlen := List.length_eq_length_filter_add (l := s.records) (·.isFor p)
    rw [length_partitioned hc]
    simp only [Resource.removed, if_true, get]
    omega
  | false =>
    simp only [removeIdentity, Bool.false_eq_true, if_false] at h
    split at h
    · next hany =>
      obtain ⟨r, hr, hp⟩ := List.any_eq_true.mp hany
      obtain ⟨hc, rfl⟩ := withRecords_eq_ok h
      have herase := List.length_eraseP_of_mem hr hp
      have hget : 0 < (s.get p).length := List.length_pos_of_mem (List.mem_filter.mpr ⟨hr, hp⟩)
      have hlen : 0 < s.records.length := List.length_pos_of_mem hr
      rw [length_partitioned hc, herase]
      simp only [Resource.removed, Bool.false_eq_true, if_false, List.length_take]
      omega
    · cases h

end Snapshot

/-! ### Edits -/

namespace Resource

def withIdentities (s : Snapshot) (r : Resource) : Resource :=
  r.withData (identityTexts s.roles s.users)

theorem setIdentities_of_partitioned {s : Snapshot} (h : s.Partitioned) (r : Resource) :
    r.setIdentities s = pure (r.withIdentities s) := by
  simp only [setIdentities, encodeIdentities_of_classified h.classified]
  rfl

def identityAdded (record : Identity) : Event :=
  ⟨.info, "identity_added", [("arn", .str record.arn), ("username", .str record.username)]⟩

def identityRemoved (record : Identity) : Event :=
  ⟨.info, "identity_removed", [("arn", .str record.arn), ("username", .str record.username),
    ("groups", Json.texts record.groups)]⟩

theorem addRecord_eq (record : Identity) (r : Resource) :
    r.addRecord record = Work.told (do
      let held ← r.identitySnapshot
      let s ← StoreError.lift (held.addIdentity record)
      pure (r.withIdentities s, [identityAdded record])) := by
  unfold addRecord
  cases r.identitySnapshot with
  | error t => rfl
  | ok held =>
    rw [Work.ofExcept, Work.pure_bind, Except.bind_ok]
    cases hs : held.addIdentity record with
    | error e => rfl
    | ok s =>
      have hset := setIdentities_of_partitioned (Snapshot.addIdentity_eq_ok hs).1 r
      rw [Work.ofStore, Work.pure_bind, hset]
      rfl

theorem addIdentity_eq (p : Principal) (username : Text) (groups : List Text) (r : Resource) :
    r.addIdentity p username groups = Work.told (do
      let record ← StoreError.lift (newIdentity p username groups)
      let held ← r.identitySnapshot
      let s ← StoreError.lift (held.addIdentity record)
      pure ((record, r.withIdentities s), [identityAdded record])) := by
  unfold addIdentity
  cases newIdentity p username groups with
  | error e => rfl
  | ok record =>
    rw [Work.ofStore, Work.pure_bind, addRecord_eq, StoreError.lift, Except.bind_ok]
    cases r.identitySnapshot with
    | error t => rfl
    | ok held =>
      rw [Except.bind_ok, Except.bind_ok]
      cases held.addIdentity record <;> rfl

theorem forM_emitRemoved (gone : List Identity) :
    gone.forM emitRemoved = Work.told (.ok ((), gone.map identityRemoved)) := by
  induction gone with
  | nil => exact Work.pure_eq ()
  | cons record gone ih =>
    have hcons : (record :: gone).forM emitRemoved =
        emitRemoved record >>= fun _ => gone.forM emitRemoved := rfl
    rw [hcons, ih]
    exact Work.told_ok_bind () [identityRemoved record] _ id

theorem removeIdentity_eq (p : Principal) (all : Bool) (r : Resource) :
    r.removeIdentity p all = Work.told (do
      let held ← r.identitySnapshot
      let s ← StoreError.lift (held.removeIdentity p all)
      pure (((removed p all held).length, r.withIdentities s),
        (removed p all held).map identityRemoved)) := by
  unfold removeIdentity
  cases r.identitySnapshot with
  | error t => rfl
  | ok held =>
    rw [Work.ofExcept, Work.pure_bind, Except.bind_ok]
    cases hs : held.removeIdentity p all with
    | error e => rfl
    | ok s =>
      have hset := setIdentities_of_partitioned (Snapshot.removeIdentity_eq_ok hs).1 r
      rw [Work.ofStore, Work.pure_bind, hset]
      dsimp only
      rw [forM_emitRemoved]
      rfl

def accountAdded (account : Text) : Event := ⟨.info, "account_added", [("account", .str account)]⟩

def accountRemoved (account : Text) : Event :=
  ⟨.info, "account_removed", [("account", .str account)]⟩

theorem addAccount_eq (account : Text) (r : Resource) :
    r.addAccount account = Work.told (do
      let held ← r.accounts
      let s : Snapshot := { accounts := held }
      pure (r.setAccounts (s.addAccount account), [accountAdded account])) := by
  unfold addAccount
  cases r.accounts <;> rfl

theorem removeAccount_eq (account : Text) (r : Resource) :
    r.removeAccount account = Work.told (do
      let held ← r.accounts
      let s : Snapshot := { accounts := held }
      let s ← StoreError.lift (s.removeAccount account)
      pure (r.setAccounts s, [accountRemoved account])) := by
  unfold removeAccount
  cases r.accounts with
  | error t => rfl
  | ok held =>
    rw [Work.ofExcept, Work.pure_bind, Except.bind_ok]
    dsimp only
    cases Snapshot.removeAccount account { accounts := held } <;> rfl

/-! ### What is read after an edit -/

variable (s : Snapshot) (r : Resource)

theorem identities_withIdentities : (r.withIdentities s).identities = .ok (s.roles ++ s.users) := by
  refine decodeRecords_of_texts ?_ ?_
  · simp only [withIdentities, withData, Data.update, identityTexts, List.foldl_cons,
      List.foldl_nil, Data.get?_set]
    rfl
  · simp only [withIdentities, withData, Data.update, identityTexts, List.foldl_cons,
      List.foldl_nil, Data.get?_set]
    rfl

theorem accounts_withIdentities : (r.withIdentities s).accounts = r.accounts := by
  refine decodeAccounts_congr (Data.get?_update_of_ne ?_ r.data)
  simp only [identityTexts, List.forall_mem_cons]
  exact ⟨by decide, by decide, by simp⟩

theorem accounts_setAccounts : (r.setAccounts s).accounts = .ok s.accounts := by
  refine decodeAccounts_printTexts ?_
  simp only [setAccounts, withData, Data.update, encodeAccounts, List.foldl_cons, List.foldl_nil,
    Data.get?_set]
  rfl

theorem identities_setAccounts : (r.setAccounts s).identities = r.identities := by
  have hframe : ∀ key, accountsKey ≠ key → (r.setAccounts s).data.get? key = r.data.get? key :=
    fun key hkey => Data.get?_update_of_ne (by simpa [encodeAccounts] using hkey) r.data
  exact decodeRecords_congr (hframe _ (by decide)) (hframe _ (by decide))

variable {s r}

theorem snapshot_eq_ok :
    r.snapshot = .ok s ↔ r.identities = .ok s.records ∧ r.accounts = .ok s.accounts := by
  have hs : r.snapshot = (do pure { records := ← r.identities, accounts := ← r.accounts }) := rfl
  rw [hs]
  cases r.identities with
  | error t => simp [bind, Except.bind]
  | ok records =>
    cases r.accounts with
    | error t => simp [bind, Except.bind]
    | ok accounts =>
      obtain ⟨records', accounts'⟩ := s
      simp [bind, Except.bind, pure, Except.pure]

theorem identitySnapshot_of_snapshot (h : r.snapshot = .ok s) :
    r.identitySnapshot = .ok s.withoutAccounts := by
  have hs : r.identitySnapshot = (do pure { records := ← r.identities }) := rfl
  rw [hs, (snapshot_eq_ok.mp h).1]
  rfl

theorem snapshot_withIdentities {s' : Snapshot} (h : r.snapshot = .ok s) (hs : s'.Partitioned)
    (haccounts : s'.accounts = s.accounts) : (r.withIdentities s').snapshot = .ok s' := by
  refine snapshot_eq_ok.mpr ⟨?_, ?_⟩
  · rw [identities_withIdentities]
    exact congrArg (fun t : Snapshot => Except.ok t.records) hs.partitioned_eq
  · rw [accounts_withIdentities, (snapshot_eq_ok.mp h).2, haccounts]

theorem snapshot_setAccounts {s' : Snapshot} (h : r.snapshot = .ok s)
    (hrecords : s'.records = s.records) : (r.setAccounts s').snapshot = .ok s' := by
  refine snapshot_eq_ok.mpr ⟨?_, accounts_setAccounts s' r⟩
  rw [identities_setAccounts, (snapshot_eq_ok.mp h).1, hrecords]

end Resource

end AuthMap
