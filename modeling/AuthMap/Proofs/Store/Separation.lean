import AuthMap.Proofs.Store.Halves

/-! Roles and users stay apart. Every edit of the identities puts them apart, however they were
stored before, and keeps all records that it does not mean to remove; no later call mixes them. -/

namespace AuthMap

/-- Each of the two texts holds one kind in its own form, and together they are the identities. -/
def Resource.Separated (r : Resource) : Prop :=
  ∃ roles users, r.identities = .ok (roles ++ users) ∧
    (∀ x ∈ roles, x.kind = .role) ∧ (∀ x ∈ users, x.kind = .user) ∧
    (∃ text, r.data.get? rolesKey = some text ∧ Loads "rolearn" roles text) ∧
    ∃ text, r.data.get? usersKey = some text ∧ Loads "userarn" users text

namespace Resource

theorem get?_withIdentities (s : Snapshot) (r : Resource) :
    (r.withIdentities s).data.get? rolesKey =
        some (Yaml.printRecords (s.roles.map (Identity.written "rolearn"))) ∧
      (r.withIdentities s).data.get? usersKey =
        some (Yaml.printRecords (s.users.map (Identity.written "userarn"))) := by
  simp only [withIdentities, withData, Data.update, identityTexts, List.foldl_cons,
    List.foldl_nil, Data.get?_set]
  exact ⟨rfl, rfl⟩

theorem separated_withIdentities (s : Snapshot) (r : Resource) :
    (r.withIdentities s).Separated := by
  obtain ⟨hroles, husers⟩ := get?_withIdentities s r
  exact ⟨s.roles, s.users, identities_withIdentities s r, fun _ => Snapshot.kind_of_mem_roles,
    fun _ => Snapshot.kind_of_mem_users, ⟨_, hroles, loads_printRecords (Or.inl rfl) _⟩,
    ⟨_, husers, loads_printRecords (Or.inr rfl) _⟩⟩

variable {r r' : Resource}

theorem identities_congr (h : Half.identities.texts r = Half.identities.texts r') :
    r.identities = r'.identities := by
  rw [Half.texts_eq_iff] at h
  exact decodeRecords_congr (h rolesKey (by decide)) (h usersKey (by decide))

theorem Separated.congr (hr : r.Separated)
    (h : Half.identities.texts r = Half.identities.texts r') : r'.Separated := by
  obtain ⟨roles, users, hidentities, hroles, husers, hroleText, huserText⟩ := hr
  rw [identities_congr h] at hidentities
  rw [Half.texts_eq_iff] at h
  rw [h rolesKey (by decide)] at hroleText
  rw [h usersKey (by decide)] at huserText
  exact ⟨roles, users, hidentities, hroles, husers, hroleText, huserText⟩

theorem identities_of_identitySnapshot {held : Snapshot} (h : r.identitySnapshot = .ok held) :
    r.identities = .ok held.records := by
  obtain ⟨rs, hrs, hs⟩ := Except.bind_eq_ok.mp h
  cases hs
  exact hrs

theorem withIdentities_of_withRecords (r : Resource) {held s : Snapshot} {rs : List Identity}
    (h : held.withRecords rs = .ok s) : Snapshot.Classified { records := rs } ∧
      r.withIdentities s = r.withIdentities { records := rs } := by
  obtain ⟨hclassified, rfl⟩ := Snapshot.withRecords_eq_ok h
  obtain ⟨hroles, husers⟩ := Snapshot.partitioned_roles { held with records := rs }
  refine ⟨hclassified, ?_⟩
  rw [withIdentities, hroles, husers]
  rfl

end Resource

/-! ### Edits -/

/-- Roles come first, then users, each kind in the order that it had; nothing else is there, and
nothing is missing. -/
structure IsStablePartition (rs kept : List Identity) : Prop where
  classified : ∀ x ∈ rs, x.kind ≠ .unknown
  ordered : rs.Pairwise fun x y => y.kind = .role → x.kind = .role
  same : ∀ k : Kind, (rs.filter fun x => x.kind = k) = kept.filter fun x => x.kind = k
  perm : rs.Perm kept

theorem isStablePartition_partitioned {s : Snapshot} (h : s.Classified) :
    IsStablePartition (s.roles ++ s.users) s.records := by
  have hpartitioned := s.partitioned_partitioned
  obtain ⟨hroles, husers⟩ := s.partitioned_roles
  refine ⟨hpartitioned.classified, ?_, ?_, ?_⟩
  · refine List.pairwise_append.mpr ⟨?_, ?_, fun x hx _ _ _ => Snapshot.kind_of_mem_roles hx⟩
    · exact List.pairwise_of_forall_mem_list fun x hx _ _ _ => Snapshot.kind_of_mem_roles hx
    · refine List.pairwise_of_forall_mem_list fun _ _ y hy hrole => ?_
      rw [Snapshot.kind_of_mem_users hy] at hrole
      cases hrole
  · intro k
    cases k with
    | role => exact hroles
    | user => exact husers
    | unknown =>
      rw [List.filter_eq_nil_iff.mpr, List.filter_eq_nil_iff.mpr]
      · exact fun x hx => by simpa using h x hx
      · exact fun x hx => by simpa using hpartitioned.classified x hx
  · exact Snapshot.perm_partitioned h

namespace Call

def editsIdentities : Call → Bool
  | .addIdentity _ _ _ | .removeIdentity _ _ => true
  | _ => false

/-- The records that a call means to keep, by the answer that it gives: a new one goes to the end,
and of those to be removed the first one goes or all of them. -/
def kept (c : Call) (a : Answer) (rs : List Identity) : List Identity :=
  match c, a with
  | .addIdentity _ _ _, .record record => rs ++ [record]
  | .removeIdentity p true, _ => rs.filter fun x => !x.isFor p
  | .removeIdentity p false, _ => rs.eraseP (·.isFor p)
  | _, _ => rs

variable {c : Call} {r : Resource} {e : (Answer × Data) × List Event}

theorem next_of_effect (h : c.effect r = .ok e) : c.next r = r.withData e.1.2 := by
  rw [next, h]

theorem next_of_error {t : Trouble} (h : c.effect r = .error t) : c.next r = r := by
  rw [next, h]

/-- After an edit the texts are those of the records that it means to keep. -/
theorem next_of_edit (hc : c.editsIdentities) (h : c.effect r = .ok e) :
    ∃ rs, r.identities = .ok rs ∧ Snapshot.Classified { records := c.kept e.1.1 rs } ∧
      c.next r = r.withIdentities { records := c.kept e.1.1 rs } := by
  have hnext := next_of_effect h
  cases c with
  | addIdentity p username groups =>
    simp only [effect, Except.bind_eq_ok, StoreError.lift_eq_ok] at h
    obtain ⟨record, -, held, hheld, s, hs, h⟩ := h
    cases h
    obtain ⟨hclassified, htexts⟩ := Resource.withIdentities_of_withRecords r hs
    exact ⟨held.records, Resource.identities_of_identitySnapshot hheld, hclassified,
      hnext.trans htexts⟩
  | removeIdentity p all =>
    simp only [effect, Except.bind_eq_ok, StoreError.lift_eq_ok] at h
    obtain ⟨held, hheld, s, hs, h⟩ := h
    cases h
    refine ⟨held.records, Resource.identities_of_identitySnapshot hheld, ?_⟩
    cases all with
    | true =>
      obtain ⟨hclassified, htexts⟩ := Resource.withIdentities_of_withRecords r hs
      exact ⟨hclassified, hnext.trans htexts⟩
    | false =>
      unfold Snapshot.removeIdentity at hs
      simp only [Bool.false_eq_true, if_false] at hs
      split at hs
      · obtain ⟨hclassified, htexts⟩ := Resource.withIdentities_of_withRecords r hs
        exact ⟨hclassified, hnext.trans htexts⟩
      · cases hs
  | _ => cases hc

theorem texts_next_of_no_edit (hc : ¬ c.editsIdentities) :
    Half.identities.texts (c.next r) = Half.identities.texts r := by
  cases c with
  | addIdentity | removeIdentity => exact absurd rfl hc
  | addAccount | removeAccount | accounts => exact texts_next_of_ne nofun
  | identities | get | find =>
    unfold next
    cases h : effect _ r with
    | error t => rfl
    | ok e =>
      simp only [effect, Except.bind_eq_ok] at h
      obtain ⟨rs, -, h⟩ := h
      cases h
      rfl

theorem isStablePartition_next (hc : c.editsIdentities) (h : c.effect r = .ok e) :
    ∃ rs rs', r.identities = .ok rs ∧ (c.next r).identities = .ok rs' ∧
      IsStablePartition rs' (c.kept e.1.1 rs) := by
  obtain ⟨rs, hrs, hclassified, hnext⟩ := next_of_edit hc h
  refine ⟨rs, _, hrs, ?_, isStablePartition_partitioned hclassified⟩
  rw [hnext]
  exact Resource.identities_withIdentities _ r

theorem separated_of_effect (hc : c.editsIdentities) (h : c.effect r = .ok e) :
    (c.next r).Separated := by
  obtain ⟨rs, -, -, hnext⟩ := next_of_edit hc h
  rw [hnext]
  exact Resource.separated_withIdentities _ r

theorem separated_next (hr : r.Separated) (c : Call) : (c.next r).Separated := by
  by_cases hc : c.editsIdentities
  · cases h : c.effect r with
    | error t =>
      rw [next_of_error h]
      exact hr
    | ok e => exact separated_of_effect hc h
  · exact hr.congr (texts_next_of_no_edit hc).symm

theorem exists_identities_next {rs : List Identity} (hr : r.identities = .ok rs) (c : Call) :
    ∃ rs, (c.next r).identities = .ok rs := by
  by_cases hc : c.editsIdentities
  · cases h : c.effect r with
    | error t =>
      rw [next_of_error h]
      exact ⟨rs, hr⟩
    | ok e =>
      obtain ⟨-, rs', -, hrs', -⟩ := isStablePartition_next hc h
      exact ⟨rs', hrs'⟩
  · exact ⟨rs, (Resource.identities_congr (texts_next_of_no_edit hc)).trans hr⟩

/-! ### Calls one after the other -/

theorem separated_performAll (hr : r.Separated) (cs : List Call) (σ : Session) :
    ∀ x ∈ performAll cs r σ, x.2.Separated := by
  induction cs generalizing r σ with
  | nil => simp [performAll]
  | cons c cs ih =>
    obtain ⟨σ', h⟩ := performAll_cons c cs r σ
    have hnext := separated_next hr c
    rw [h, List.forall_mem_cons]
    exact ⟨hnext, ih hnext σ'⟩

/-- However the identities are stored at first, an edit that succeeds makes a stable partition of
the records that it means to keep, and from then on each of the two texts holds one kind alone. -/
theorem separated_of_edit {rs₀ : List Identity} (h : decodeRecords r.data = .ok rs₀)
    (cs : List Call) (σ : Session) {i : Nat} {c : Call} {a : Answer} (hc : cs[i]? = some c)
    (hedit : c.editsIdentities) (ha : (performAll cs r σ)[i]?.map (·.1) = some (.ok a)) :
    let held := r :: (performAll cs r σ).map (·.2)
    (∃ before after rs rs', held[i]? = some before ∧ held[i + 1]? = some after ∧
      before.identities = .ok rs ∧ after.identities = .ok rs' ∧
        IsStablePartition rs' (c.kept a rs)) ∧
      ∀ j x, i < j → held[j]? = some x → x.Separated := by
  -- the identities can be read after each call, so that an edit always finds records
  induction cs generalizing r rs₀ σ i with
  | nil => cases hc
  | cons d cs ih =>
    obtain ⟨σ', hrun⟩ := performAll_cons d cs r σ
    obtain ⟨rs₁, hidentities⟩ := exists_identities_next h d
    intro held
    have hheld : held = r :: d.next r :: (performAll cs (d.next r) σ').map (·.2) := by
      simp only [held, hrun, List.map_cons]
    rw [hrun] at ha
    cases i with
    | zero =>
      obtain rfl : d = c := Option.some.inj hc
      obtain ⟨e, heffect, rfl⟩ : ∃ e, d.effect r = .ok e ∧ e.1.1 = a := by
        cases heffect : d.effect r with
        | error t => simp [heffect, Except.map] at ha
        | ok e => exact ⟨e, rfl, by simpa [heffect, Except.map] using ha⟩
      obtain ⟨rs, rs', hrs, hrs', hpartition⟩ := isStablePartition_next hedit heffect
      have hseparated := separated_of_effect hedit heffect
      rw [hheld]
      refine ⟨⟨r, d.next r, rs, rs', rfl, rfl, hrs, hrs', hpartition⟩, ?_⟩
      · intro j x hj hx
        obtain ⟨j, rfl⟩ := Nat.exists_eq_succ_of_ne_zero (Nat.ne_of_gt hj)
        rw [List.getElem?_cons_succ] at hx
        rcases List.mem_cons.mp (List.mem_of_getElem? hx) with rfl | hx
        · exact hseparated
        · obtain ⟨y, hy, rfl⟩ := List.mem_map.mp hx
          exact separated_performAll hseparated cs σ' y hy
    | succ i =>
      obtain ⟨hpartition, hseparated⟩ := ih hidentities σ' hc ha
      rw [hheld]
      refine ⟨hpartition, fun j x hj hx => ?_⟩
      obtain ⟨j, rfl⟩ := Nat.exists_eq_succ_of_ne_zero (Nat.ne_of_gt (Nat.zero_lt_of_lt hj))
      exact hseparated j x (Nat.lt_of_succ_lt_succ hj) hx

/-- A user is filed among the roles and a role among the users, and the accounts cannot be read. A
removal that finds nothing to remove puts both right. -/
theorem separated_of_edit_misfiled :
    let user : Identity := ⟨"arn:aws:iam::1:user/ann", "ann", []⟩
    let role : Identity := ⟨"arn:aws:iam::1:role/ops", "ops", ["system:masters"]⟩
    let r : Resource := { data := (accountsKey, "[") :: identityTexts [user] [role] }
    let cs := [removeIdentity (.text "bob") true, addAccount "1"]
    decodeRecords r.data = .ok [user, role] ∧
      (performAll cs r {})[0]?.map (·.1) = some (.ok (.count 0)) ∧
      (∃ r' rs', ((performAll cs r {}).map (·.2))[0]? = some r' ∧ r'.identities = .ok rs' ∧
        IsStablePartition rs' [user, role]) ∧
      ∀ x, ((performAll cs r {}).map (·.2))[1]? = some x → x.Separated := by
  intro user role r cs
  have hrecords : decodeRecords r.data = .ok ([user] ++ [role]) := decodeRecords_of_texts rfl rfl
  have heffect : (removeIdentity (.text "bob") true).effect r =
      .ok ((.count 0, identityTexts [role] [user]), []) := by
    have hsnapshot : r.identitySnapshot = .ok { records := [user, role] } :=
      Except.bind_eq_ok.mpr ⟨_, hrecords, rfl⟩
    rw [effect, hsnapshot]
    rfl
  have hanswer : (performAll cs r {})[0]?.map (·.1) = some (.ok (.count 0)) := by
    obtain ⟨σ', hrun⟩ := performAll_cons (removeIdentity (.text "bob") true) [addAccount "1"] r {}
    rw [hrun, heffect]
    rfl
  obtain ⟨⟨before, after, rs, rs', hbefore, hafter, hrs, hrs', hpartition⟩, hseparated⟩ :=
    separated_of_edit hrecords cs {} (i := 0) rfl rfl hanswer
  simp only [List.getElem?_cons_zero, Option.some.injEq] at hbefore
  subst hbefore
  obtain rfl : [user, role] = rs := Except.ok.inj (hrecords.symm.trans hrs)
  simp only [List.getElem?_cons_succ] at hafter
  refine ⟨hrecords, hanswer, ⟨after, rs', hafter, hrs', hpartition⟩, fun x hx => ?_⟩
  refine hseparated 2 x (by decide) ?_
  rw [List.getElem?_cons_succ]
  exact hx

end Call

end AuthMap
