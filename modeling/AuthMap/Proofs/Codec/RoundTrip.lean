import AuthMap.Proofs.Arn
import AuthMap.Proofs.Codec.Stored

/-! The codec is a round trip: a snapshot is read back from its texts with roles before users, and
has the same texts again. -/

namespace AuthMap

namespace Snapshot

/-- The records with roles before users, each kind in order. -/
def partitioned (s : Snapshot) : Snapshot := { s with records := s.roles ++ s.users }

def Classified (s : Snapshot) : Prop := ∀ r ∈ s.records, r.kind ≠ .unknown

instance (s : Snapshot) : Decidable s.Classified :=
  inferInstanceAs (Decidable (∀ r ∈ s.records, r.kind ≠ .unknown))

/-- Roles come before users, and there is nothing else. -/
def Partitioned (s : Snapshot) : Prop :=
  ∃ roles users, s.records = roles ++ users ∧ (∀ r ∈ roles, r.kind = .role) ∧
    ∀ r ∈ users, r.kind = .user

end Snapshot

theorem filter_kind_eq_self {k : Kind} {rs : List Identity} (h : ∀ r ∈ rs, r.kind = k) :
    rs.filter (fun r => r.kind = k) = rs :=
  List.filter_eq_self.mpr fun r hr => by simp [h r hr]

theorem filter_kind_eq_nil {k k' : Kind} (hk : k ≠ k') {rs : List Identity}
    (h : ∀ r ∈ rs, r.kind = k) : rs.filter (fun r => r.kind = k') = [] :=
  List.filter_eq_nil_iff.mpr fun r hr => by simp [h r hr, hk]

namespace Snapshot

theorem kind_of_mem_roles {s : Snapshot} {r : Identity} (h : r ∈ s.roles) : r.kind = .role := by
  simpa using (List.mem_filter.mp h).2

theorem kind_of_mem_users {s : Snapshot} {r : Identity} (h : r ∈ s.users) : r.kind = .user := by
  simpa using (List.mem_filter.mp h).2

theorem partitioned_partitioned (s : Snapshot) : s.partitioned.Partitioned :=
  ⟨s.roles, s.users, rfl, fun _ => kind_of_mem_roles, fun _ => kind_of_mem_users⟩

theorem Partitioned.roles_append {s : Snapshot} {roles users : List Identity}
    (hs : s.records = roles ++ users) (hr : ∀ r ∈ roles, r.kind = .role)
    (hu : ∀ r ∈ users, r.kind = .user) : s.roles = roles ∧ s.users = users := by
  constructor
  · rw [Snapshot.roles, hs, List.filter_append, filter_kind_eq_self hr,
      filter_kind_eq_nil (by decide) hu, List.append_nil]
  · rw [Snapshot.users, hs, List.filter_append, filter_kind_eq_self hu,
      filter_kind_eq_nil (by decide) hr, List.nil_append]

theorem Partitioned.partitioned_eq {s : Snapshot} (h : s.Partitioned) : s.partitioned = s := by
  obtain ⟨roles, users, hs, hr, hu⟩ := h
  obtain ⟨hroles, husers⟩ := Partitioned.roles_append hs hr hu
  rw [partitioned, hroles, husers, ← hs]

theorem Partitioned.classified {s : Snapshot} (h : s.Partitioned) : s.Classified := by
  obtain ⟨roles, users, hs, hr, hu⟩ := h
  intro r hmem
  rw [hs] at hmem
  rcases List.mem_append.mp hmem with hmem | hmem
  · simp [hr r hmem]
  · simp [hu r hmem]

theorem partitioned_roles (s : Snapshot) : s.partitioned.roles = s.roles ∧
    s.partitioned.users = s.users :=
  Partitioned.roles_append rfl (fun _ => kind_of_mem_roles) fun _ => kind_of_mem_users

theorem split_of_classified {s : Snapshot} (h : s.Classified) :
    split s.records = .ok (s.roles, s.users) := by
  have hnone : (s.records.find? fun r => r.kind = .unknown) = none :=
    List.find?_eq_none.mpr fun r hr => by simp [h r hr]
  simp only [split, hnone]
  rfl

end Snapshot

/-! ### Writing -/

theorem storedKey_of_kind {r : Identity} (h : r.kind ≠ .unknown) :
    r.storedKey = .ok (Identity.arnKey r.kind) := by
  cases ha : Arn.ofText? r.arn with
  | none => exact absurd (by simp [Identity.kind, Arn.kindOf, ha]) h
  | some a =>
    have hkind : r.kind = a.kind := Arn.kindOf_of_ofText? ha
    rw [hkind] at h ⊢
    simp only [Identity.storedKey, Identity.principal, Arn.parse, ha, Arn.requireKind_of_kind h,
      bind, Except.bind]
    rfl

theorem toMapping_of_kind {r : Identity} (h : r.kind ≠ .unknown) :
    r.toMapping = .ok (.obj (r.fields (Identity.arnKey r.kind))) := by
  rw [Identity.toMapping, storedKey_of_kind h]
  rfl

theorem encodeIdentity_of_kind {r : Identity} (h : r.kind ≠ .unknown) (key : String) :
    encodeIdentity key r = .ok (r.written (Identity.arnKey r.kind)) := by
  rw [encodeIdentity, storedKey_of_kind h]

theorem printIdentities_of_kind (key : String) {k : Kind} (hk : k ≠ .unknown)
    {rs : List Identity} (h : ∀ r ∈ rs, r.kind = k) :
    printIdentities key rs =
      .ok (Yaml.printRecords (rs.map (Identity.written (Identity.arnKey k)))) := by
  have hmap : rs.mapM (encodeIdentity key) =
      .ok (rs.map (Identity.written (Identity.arnKey k))) := by
    induction rs with
    | nil => rfl
    | cons r rs ih =>
      obtain rfl : r.kind = k := h r List.mem_cons_self
      have hrest := ih fun x hx => h x (List.mem_cons_of_mem _ hx)
      simp only [List.mapM_cons, encodeIdentity_of_kind hk, hrest, bind, Except.bind]
      rfl
  rw [printIdentities, hmap]
  rfl

def identityTexts (roles users : List Identity) : Data :=
  [(rolesKey, Yaml.printRecords (roles.map (Identity.written "rolearn"))),
    (usersKey, Yaml.printRecords (users.map (Identity.written "userarn")))]

theorem encodeIdentities_of_classified {s : Snapshot} (h : s.Classified) :
    encodeIdentities s.records = .ok (identityTexts s.roles s.users) := by
  have hroles := printIdentities_of_kind rolesKey (by decide)
    fun r hr => Snapshot.kind_of_mem_roles (s := s) hr
  have husers := printIdentities_of_kind usersKey (by decide)
    fun r hr => Snapshot.kind_of_mem_users (s := s) hr
  simp only [encodeIdentities, Snapshot.split_of_classified h, hroles, husers, bind, Except.bind]
  rfl

theorem encodeSnapshot_of_classified {s : Snapshot} (h : s.Classified) :
    encodeSnapshot s = .ok (identityTexts s.roles s.users ++ encodeAccounts s.accounts) := by
  rw [encodeSnapshot, encodeIdentities_of_classified h]
  rfl

/-! ### Reading -/

theorem decodeRecords_of_texts {roles users : List Identity} {data : Data}
    (hroles : data.get? rolesKey =
      some (Yaml.printRecords (roles.map (Identity.written "rolearn"))))
    (husers : data.get? usersKey =
      some (Yaml.printRecords (users.map (Identity.written "userarn")))) :
    decodeRecords data = .ok (roles ++ users) := by
  simp only [decodeRecords, decodeIdentities_printRecords (Or.inl rfl) hroles,
    decodeIdentities_printRecords (Or.inr rfl) husers, bind, Except.bind]
  rfl

/-- A snapshot whose records are roles and users has texts that hold it, roles first; from what
they hold the same texts are written again. -/
theorem decodeSnapshot_encodeSnapshot (s : Snapshot) (h : s.Classified) :
    ∃ data, encodeSnapshot s = .ok data ∧ decodeSnapshot data = .ok s.partitioned ∧
      (s.Partitioned → decodeSnapshot data = .ok s) ∧ encodeSnapshot s.partitioned = .ok data := by
  -- no text of this data depends on how roles and users were mixed
  let data := identityTexts s.roles s.users ++ encodeAccounts s.accounts
  have hrecords : decodeRecords data = .ok (s.roles ++ s.users) := decodeRecords_of_texts rfl rfl
  have haccounts : decodeAccounts data = .ok s.accounts := decodeAccounts_printTexts rfl
  have hdecode : decodeSnapshot data = .ok s.partitioned := by
    simp only [decodeSnapshot, hrecords, haccounts, bind, Except.bind]
    rfl
  refine ⟨data, encodeSnapshot_of_classified h, hdecode, fun hp => ?_, ?_⟩
  · rw [hdecode, hp.partitioned_eq]
  · rw [encodeSnapshot_of_classified s.partitioned_partitioned.classified,
      s.partitioned_roles.1, s.partitioned_roles.2]
    rfl

/-- A user, then a role: they change places. -/
theorem decodeSnapshot_encodeSnapshot_user_role :
    let user : Identity := ⟨"arn:aws:iam::000000000123:user/ ann", "true", []⟩
    let role : Identity := ⟨"arn:aws:iam::000000000123:role/ops", "a: b # c", ["x\ny", ""]⟩
    let s : Snapshot := ⟨[user, role], ["000000000123"]⟩
    s.Classified ∧ ∃ data, encodeSnapshot s = .ok data ∧
      decodeSnapshot data = .ok ⟨[role, user], ["000000000123"]⟩ := by
  intro user role s
  have hs : s.Classified := by decide
  obtain ⟨data, hdata, hdecode, -, -⟩ := decodeSnapshot_encodeSnapshot s hs
  exact ⟨hs, data, hdata, hdecode⟩

end AuthMap
