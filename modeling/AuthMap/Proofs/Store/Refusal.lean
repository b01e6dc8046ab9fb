import AuthMap.Proofs.Codec.Reports
import AuthMap.Proofs.Codec.Splitting
import AuthMap.Proofs.Store.Answers

/-! When an edit of the identities is refused, and with which error: first comes the principal that
is given, then the texts that are held, then whether there is anything to remove, and last the
records that would be written. -/

namespace AuthMap

namespace Identity

theorem isFor_iff {x : Identity} {p : Principal} : x.isFor p ↔ x.arn = p.toText :=
  decide_eq_true_iff

end Identity

namespace Snapshot

theorem withRecords_cases (kept : List Identity) (s : Snapshot) :
    (∀ x ∈ kept, x.kind ≠ .unknown) ∧ (∃ s', s.withRecords kept = .ok s') ∨
      ∃ bad : Identity, bad.IsFirstStray kept ∧ s.withRecords kept = .error bad.unfiled := by
  rcases split_cases kept with ⟨hkept, hsplit⟩ | ⟨bad, hbad, hsplit⟩
  · refine Or.inl ⟨hkept, ?_⟩
    simp only [withRecords, hsplit, Except.bind_ok]
    exact ⟨_, rfl⟩
  · refine Or.inr ⟨bad, hbad, ?_⟩
    simp only [withRecords, hsplit]
    rfl

end Snapshot

/-! ### Answers -/

/-- Roles are read before users. -/
theorem Resource.identities_eq_error {r : Resource} {t : Trouble} :
    r.identities = .error t ↔ decodeIdentities rolesKey r.data = .error t ∨
      (∃ roles, decodeIdentities rolesKey r.data = .ok roles) ∧
        decodeIdentities usersKey r.data = .error t := by
  unfold Resource.identities decodeRecords
  rw [Except.bind_eq_error]
  apply or_congr_right
  constructor
  · rintro ⟨roles, hroles, h⟩
    rcases Except.bind_eq_error.mp h with husers | ⟨users, -, h⟩
    · exact ⟨⟨roles, hroles⟩, husers⟩
    · cases h
  · rintro ⟨⟨roles, hroles⟩, husers⟩
    exact ⟨roles, hroles, Except.bind_eq_error.mpr (Or.inl husers)⟩

namespace Call

variable {c : Call} {r : Resource} {rs kept : List Identity} {p : Principal} {t : Trouble}
  {result : Except Trouble Answer}

/-- The records that are to be written decide. Each must be a role or a user, and otherwise the
error names the first that is neither. -/
structure DecidedBy (kept : List Identity) (a : Answer) (result : Except Trouble Answer) :
    Prop where
  refused : (∃ key arn reason, result = .error (.store (.unencodable key arn reason))) ↔
    ∃ x ∈ kept, x.kind = .unknown
  named : ∀ key arn reason, result = .error (.store (.unencodable key arn reason)) →
    ∃ bad : Identity, bad.IsFirstStray kept ∧ arn = bad.arn
  accepted : (∀ x ∈ kept, x.kind ≠ .unknown) → result = .ok a

theorem decidedBy_withRecords (kept : List Identity) (a : Answer) (s : Snapshot) :
    DecidedBy kept a ((StoreError.lift (s.withRecords kept)).map fun _ => a) := by
  rcases s.withRecords_cases kept with ⟨hkept, s', hs⟩ | ⟨bad, hbad, hs⟩
  · rw [hs]
    exact {
      refused := iff_of_false nofun fun ⟨x, hx, hkind⟩ => hkept x hx hkind
      named := nofun
      accepted := fun _ => rfl }
  · rw [hs]
    exact {
      refused := iff_of_true ⟨_, _, _, rfl⟩ ⟨bad, hbad.mem, hbad.kind⟩
      named := fun key arn reason h => by
        cases h
        exact ⟨bad, hbad, rfl⟩
      accepted := fun hkept => absurd hbad.kind (hkept bad hbad.mem) }

theorem DecidedBy.eq_of_error {a : Answer} (h : DecidedBy kept a result)
    (ht : result = .error t) : ∃ key arn reason, t = .store (.unencodable key arn reason) := by
  by_cases hkept : ∃ x ∈ kept, x.kind = .unknown
  · obtain ⟨key, arn, reason, hreason⟩ := h.refused.mpr hkept
    exact ⟨key, arn, reason, Except.error.inj (ht.symm.trans hreason)⟩
  · rw [h.accepted fun x hx hkind => hkept ⟨x, hx, hkind⟩] at ht
    cases ht

theorem DecidedBy.of_append {record : Identity} {a : Answer}
    (h : DecidedBy (rs ++ [record]) a result) (hrecord : record.kind ≠ .unknown) :
    DecidedBy rs a result where
  refused := by
    rw [h.refused]
    simp [or_and_right, exists_or, hrecord]
  named key arn reason hresult := by
    obtain ⟨bad, hbad, harn⟩ := h.named key arn reason hresult
    exact ⟨bad, hbad.of_append hrecord, harn⟩
  accepted hrs := by
    refine h.accepted fun x hx => ?_
    rcases List.mem_append.mp hx with hx | hx
    · exact hrs x hx
    · rwa [List.mem_singleton.mp hx]

theorem identitySnapshot_eq (r : Resource) :
    r.identitySnapshot = r.identities.map fun rs => { records := rs } := by
  have h : r.identitySnapshot = (do pure { records := ← r.identities }) := rfl
  rw [h]
  cases r.identities <;> rfl

/-! ### Adding -/

theorem answer_addIdentity_of_error {e : StoreError} {username : Text} {groups : List Text}
    (h : newIdentity p username groups = .error e) (r : Resource) (σ : Session) :
    (addIdentity p username groups).answer r σ = .error (.store e) := by
  rw [answer_eq, effect, h]
  rfl

section Adding

variable {record : Identity} {username : Text} {groups : List Text}

theorem answer_addIdentity_of_unread (hrecord : newIdentity p username groups = .ok record)
    (h : r.identities = .error t) (σ : Session) :
    (addIdentity p username groups).answer r σ = .error t := by
  rw [answer_eq, effect, hrecord, identitySnapshot_eq, h]
  rfl

theorem answer_addIdentity (hrecord : newIdentity p username groups = .ok record)
    (h : r.identities = .ok rs) (σ : Session) :
    (addIdentity p username groups).answer r σ =
      (StoreError.lift (Snapshot.withRecords (rs ++ [record]) { records := rs })).map
        fun _ => .record record := by
  rw [answer_eq, effect, hrecord, identitySnapshot_eq, h]
  simp only [StoreError.lift, Except.bind_ok, Except.map, Snapshot.addIdentity]
  cases Snapshot.withRecords (rs ++ [record]) { records := rs } <;> rfl

theorem decidedBy_addIdentity (hrecord : newIdentity p username groups = .ok record)
    (hkind : record.kind ≠ .unknown) (h : r.identities = .ok rs) (σ : Session) :
    DecidedBy rs (.record record) ((addIdentity p username groups).answer r σ) := by
  rw [answer_addIdentity hrecord h σ]
  exact (decidedBy_withRecords _ _ _).of_append hkind

end Adding

/-! ### Removing -/

theorem answer_removeIdentity (h : r.identities = .ok rs) (p : Principal) (all : Bool)
    (σ : Session) : (removeIdentity p all).answer r σ =
      (StoreError.lift (Snapshot.removeIdentity p all { records := rs })).map fun _ =>
        .count (Resource.removed p all { records := rs }).length := by
  rw [answer_eq, effect, identitySnapshot_eq, h]
  simp only [Except.bind_ok, Except.map]
  cases Snapshot.removeIdentity p all { records := rs } <;> rfl

theorem answer_removeIdentity_of_absent (h : r.identities = .ok rs)
    (habsent : ∀ x ∈ rs, x.arn ≠ p.toText) (σ : Session) :
    (removeIdentity p false).answer r σ = .error (.store (.identityNotFound p.toText)) := by
  have hany : rs.any (·.isFor p) = false := by simpa [Identity.isFor_iff] using habsent
  rw [answer_removeIdentity h, Snapshot.removeIdentity]
  simp only [hany, Bool.false_eq_true, if_false]
  rfl

/-- The first record for the principal is not among those that are written. -/
theorem decidedBy_removeIdentity_first {before after : List Identity} {x : Identity}
    (h : r.identities = .ok (before ++ x :: after)) (hbefore : ∀ y ∈ before, y.arn ≠ p.toText)
    (hx : x.arn = p.toText) (σ : Session) :
    DecidedBy (before ++ after) (.count 1) ((removeIdentity p false).answer r σ) := by
  have hfor : x.isFor p := Identity.isFor_iff.mpr hx
  have hnot : ∀ y ∈ before, ¬ y.isFor p := fun y hy => mt Identity.isFor_iff.mp (hbefore y hy)
  have hany : (before ++ x :: after).any (·.isFor p) = true := by simp [hfor]
  have herase : (before ++ x :: after).eraseP (·.isFor p) = before ++ after := by
    rw [List.eraseP_append_right _ hnot, List.eraseP_cons_of_pos hfor]
  have hgone : (Resource.removed p false { records := before ++ x :: after }).length = 1 := by
    simp [Resource.removed, Snapshot.get, hfor]
    omega
  rw [answer_removeIdentity h, hgone, Snapshot.removeIdentity]
  simp only [Bool.false_eq_true, if_false, hany, if_true, herase]
  exact decidedBy_withRecords _ _ _

theorem decidedBy_removeIdentity_all (h : r.identities = .ok rs) (p : Principal) (σ : Session) :
    DecidedBy (rs.filter fun x => x.arn ≠ p.toText)
      (.count (rs.countP fun x => x.arn = p.toText)) ((removeIdentity p true).answer r σ) := by
  have hkept : (rs.filter fun x => !x.isFor p) = rs.filter fun x => x.arn ≠ p.toText := by
    simp [Identity.isFor]
  have hgone : (Resource.removed p true { records := rs }).length =
      rs.countP fun x => x.arn = p.toText := by
    simp [Resource.removed, Snapshot.get, Identity.isFor, List.countP_eq_length_filter]
  rw [answer_removeIdentity h, hgone, Snapshot.removeIdentity, if_pos rfl]
  dsimp only
  rw [hkept]
  exact decidedBy_withRecords _ _ _

/-! ### All refusals -/

/-- What the identities cannot be read for is found in the texts of one of their keys. -/
theorem identities_unread (h : r.identities = .error t) :
    (∃ key reason, t = .store (.undecodable key reason)) ∨
      ∃ key ∈ Half.identities.keys, ∃ f, t = .value f ∧ r.data.Unvalued key f := by
  obtain ⟨key, hkey, hread⟩ : ∃ key ∈ Half.identities.keys,
      decodeIdentities key r.data = .error t := by
    rcases Resource.identities_eq_error.mp h with hroles | ⟨-, husers⟩
    · exact ⟨rolesKey, by decide, hroles⟩
    · exact ⟨usersKey, by decide, husers⟩
  rcases (settled_decodeIdentities key r.data).eq_of_error hread with
    ⟨⟨reason, hreason⟩, -⟩ | ⟨f, hf, hvalue⟩
  · exact Or.inl ⟨key, reason, hreason⟩
  · exact Or.inr ⟨key, hkey, f, hf, hvalue⟩

/-- What the answer can be when a role or a user is to be added. -/
theorem answer_addIdentity_cases {raw : Text} (h : Arn.kindOf raw ≠ .unknown) (username : Text)
    (groups : List Text) (r : Resource) (σ : Session) :
    (∃ t, r.identities = .error t ∧
      (addIdentity (.text raw) username groups).answer r σ = .error t) ∨
    ∃ rs, r.identities = .ok rs ∧ DecidedBy rs (.record ⟨raw, username, groups⟩)
      ((addIdentity (.text raw) username groups).answer r σ) := by
  have hrecord := newIdentity_of_kind username groups h
  cases hrs : r.identities with
  | error t => exact Or.inl ⟨t, rfl, answer_addIdentity_of_unread hrecord hrs σ⟩
  | ok rs => exact Or.inr ⟨rs, rfl, decidedBy_addIdentity hrecord h hrs σ⟩

theorem error_of_addIdentity {raw username : Text} {groups : List Text} {σ : Session}
    {e : StoreError} (h : Arn.kindOf raw ≠ .unknown)
    (he : (addIdentity (.text raw) username groups).answer r σ = .error (.store e)) :
    (∃ key reason, e = .undecodable key reason) ∨
      ∃ key arn reason, e = .unencodable key arn reason := by
  rcases answer_addIdentity_cases h username groups r σ with ⟨t, hrs, ht⟩ | ⟨rs, hrs, hrecord⟩
  · rw [he] at ht
    cases ht
    rcases identities_unread hrs with ⟨key, reason, hreason⟩ | ⟨key, -, f, hf, -⟩
    · exact Or.inl ⟨key, reason, Trouble.store.inj hreason⟩
    · cases hf
  · obtain ⟨key, arn, reason, hreason⟩ := hrecord.eq_of_error he
    exact Or.inr ⟨key, arn, reason, Trouble.store.inj hreason⟩

section Principal

variable (raw username : Text) (groups : List Text) (r : Resource) (σ : Session)

theorem malformedArn_iff :
    (addIdentity (.text raw) username groups).answer r σ = .error (.store (.malformedArn raw)) ↔
      raw.count colon < 5 := by
  constructor
  · intro hresult
    by_cases hkind : Arn.kindOf raw = .unknown
    · cases ha : Arn.ofText? raw with
      | none => exact Arn.ofText?_eq_none_iff.mp ha
      | some a =>
        rw [Arn.kindOf_of_ofText? ha] at hkind
        have hnew := newIdentity_of_unclassified username groups ha hkind
        rw [answer_addIdentity_of_error hnew r σ] at hresult
        cases hresult
    · rcases error_of_addIdentity hkind hresult with ⟨key, reason, h⟩ | ⟨key, arn, reason, h⟩
      · cases h
      · cases h
  · intro hcount
    exact answer_addIdentity_of_error (newIdentity_of_malformed username groups hcount) r σ

theorem unclassifiedArn_iff :
    (∃ type, (addIdentity (.text raw) username groups).answer r σ =
      .error (.store (.unclassifiedArn raw type))) ↔
        5 ≤ raw.count colon ∧ Arn.kindOf raw = .unknown := by
  constructor
  · rintro ⟨type, hresult⟩
    constructor
    · refine Nat.le_of_not_lt fun hcount => ?_
      rw [(malformedArn_iff raw username groups r σ).mpr hcount] at hresult
      cases hresult
    · by_contra hkind
      rcases error_of_addIdentity hkind hresult with ⟨key, reason, h⟩ | ⟨key, arn, reason, h⟩
      · cases h
      · cases h
  · rintro ⟨hcount, hkind⟩
    cases ha : Arn.ofText? raw with
    | none => exact absurd (Arn.ofText?_eq_none_iff.mp ha) (Nat.not_lt.mpr hcount)
    | some a =>
      rw [Arn.kindOf_of_ofText? ha] at hkind
      have hnew := newIdentity_of_unclassified username groups ha hkind
      exact ⟨_, answer_addIdentity_of_error hnew r σ⟩

/-- As long as no scalar is without a value, a role or a user is refused with a decode error exactly
if the identities cannot be read. -/
theorem undecodable_iff (hkind : Arn.kindOf raw ≠ .unknown)
    (hvalued : ∀ key ∈ Half.identities.keys, ∀ f, ¬ r.data.Unvalued key f) :
    (∃ key reason, (addIdentity (.text raw) username groups).answer r σ =
      .error (.store (.undecodable key reason))) ↔ ∀ rs, r.identities ≠ .ok rs := by
  rcases answer_addIdentity_cases hkind username groups r σ with ⟨t, hrs, ht⟩ | ⟨rs, hrs, hrecord⟩
  · refine iff_of_true ?_ (by simp [hrs])
    rcases identities_unread hrs with ⟨key, reason, rfl⟩ | ⟨key, hkey, f, -, hf⟩
    · exact ⟨key, reason, ht⟩
    · exact absurd hf (hvalued key hkey f)
  · refine iff_of_false ?_ (fun hne => hne rs hrs)
    rintro ⟨key, reason, hresult⟩
    obtain ⟨key', arn, reason', hreason⟩ := hrecord.eq_of_error hresult
    cases hreason

end Principal

theorem identityNotFound_iff (h : r.identities = .ok rs) (p : Principal) (σ : Session) :
    (removeIdentity p false).answer r σ = .error (.store (.identityNotFound p.toText)) ↔
      ∀ x ∈ rs, x.arn ≠ p.toText := by
  constructor
  · intro hresult
    by_contra hmem
    simp only [not_forall, not_not] at hmem
    obtain ⟨x, hx, harn⟩ := hmem
    -- the first record for the principal splits the others in two
    obtain ⟨first, before, after, hbefore, hfirst, rfl, -⟩ :=
      List.exists_of_eraseP (p := fun x : Identity => x.arn = p.toText) hx (by simpa using harn)
    have hdecided := decidedBy_removeIdentity_first h (by simpa using hbefore)
      (by simpa using hfirst) σ
    obtain ⟨key, arn, reason, hreason⟩ := hdecided.eq_of_error hresult
    cases hreason
  · intro habsent
    exact answer_removeIdentity_of_absent h habsent σ

/-- An edit of the identities is refused for these reasons alone. To add is refused for what is no
name, or the name of neither a role nor a user, whatever is held; then because what is held cannot
be read, as long as no scalar in it is without a value; and then because of a held record that is
neither. To remove the first record for a principal is refused if there is none, also where other
records are neither a role nor a user, and then because of another record than that first one; to
remove all of them, because of a record for another principal. The error names the first record
that stands in the way. -/
theorem refused_iff (r : Resource) (σ : Session) :
    (∀ (raw username : Text) (groups : List Text),
      let result := (addIdentity (.text raw) username groups).answer r σ
      (result = .error (.store (.malformedArn raw)) ↔ raw.count colon < 5) ∧
      ((∃ type, result = .error (.store (.unclassifiedArn raw type))) ↔
        5 ≤ raw.count colon ∧ Arn.kindOf raw = .unknown) ∧
      (Arn.kindOf raw ≠ .unknown →
        ((∀ key ∈ Half.identities.keys, ∀ f, ¬ r.data.Unvalued key f) →
          ((∃ key reason, result = .error (.store (.undecodable key reason))) ↔
            ∀ rs, r.identities ≠ .ok rs)) ∧
        ∀ rs, r.identities = .ok rs → DecidedBy rs (.record ⟨raw, username, groups⟩) result)) ∧
    (∀ (p : Principal) (rs : List Identity), r.identities = .ok rs →
      let result := (removeIdentity p false).answer r σ
      (result = .error (.store (.identityNotFound p.toText)) ↔ ∀ x ∈ rs, x.arn ≠ p.toText) ∧
        ∀ before x after, rs = before ++ x :: after → (∀ y ∈ before, y.arn ≠ p.toText) →
          x.arn = p.toText → DecidedBy (before ++ after) (.count 1) result) ∧
    ∀ (p : Principal) (rs : List Identity), r.identities = .ok rs →
      let result := (removeIdentity p true).answer r σ
      (∀ arn, result ≠ .error (.store (.identityNotFound arn))) ∧
        DecidedBy (rs.filter fun x => x.arn ≠ p.toText)
          (.count (rs.countP fun x => x.arn = p.toText)) result := by
  refine ⟨fun raw username groups => ?_, fun p rs hrs => ?_, fun p rs hrs => ?_⟩
  · refine ⟨malformedArn_iff raw username groups r σ, unclassifiedArn_iff raw username groups r σ,
      fun hkind => ⟨undecodable_iff raw username groups r σ hkind, fun rs hrs => ?_⟩⟩
    exact decidedBy_addIdentity (newIdentity_of_kind username groups hkind) hkind hrs σ
  · refine ⟨identityNotFound_iff hrs p σ, fun before x after hsplit hbefore hx => ?_⟩
    exact decidedBy_removeIdentity_first (hsplit ▸ hrs) hbefore hx σ
  · have hdecided := decidedBy_removeIdentity_all hrs p σ
    refine ⟨fun arn hresult => ?_, hdecided⟩
    obtain ⟨key, arn', reason, hreason⟩ := hdecided.eq_of_error hresult
    cases hreason

/-- A role, and a record that is neither a role nor a user. That record can be removed, but no other
edit of the identities is possible; and where the roles are no list, no role can be added. -/
theorem refused_iff_stray :
    let role : Identity := ⟨"arn:aws:iam::1:role/ops", "ops", []⟩
    let stray : Identity := ⟨"arn:aws:iam::1:group/dev", "dev", []⟩
    let r : Resource := { data := identityTexts [role] [stray] }
    let number : Resource := { data := [(rolesKey, "5")] }
    let add (raw : Text) (r : Resource) := (addIdentity (.text raw) [] []).answer r {}
    let remove (raw : Text) := (removeIdentity (.text raw) false).answer r {}
    add "bob" r = .error (.store (.malformedArn "bob")) ∧
      (∃ reason key, add role.arn r = .error (.store (.unencodable key stray.arn reason))) ∧
      (∃ key reason, add role.arn number = .error (.store (.undecodable key reason))) ∧
      remove "bob" = .error (.store (.identityNotFound "bob")) ∧
      (∃ reason key, remove role.arn = .error (.store (.unencodable key stray.arn reason))) ∧
      remove stray.arn = .ok (.count 1) := by
  intro role stray r number add remove
  have hrs : r.identities = .ok ([role] ++ [stray]) := decodeRecords_of_texts rfl rfl
  have named (kept : List Identity) (hkept : kept ⊆ [role, stray]) (hmem : stray ∈ kept)
      {a : Answer} {result : Except Trouble Answer} (h : DecidedBy kept a result) :
      ∃ reason key, result = .error (.store (.unencodable key stray.arn reason)) := by
    obtain ⟨key, arn, reason, hresult⟩ := h.refused.mpr ⟨stray, hmem, rfl⟩
    obtain ⟨bad, hbad, rfl⟩ := h.named key arn reason hresult
    have hne : bad ≠ role := by
      rintro rfl
      exact absurd hbad.kind (by decide)
    obtain rfl : bad = stray := by simpa [hne] using hkept hbad.mem
    exact ⟨reason, key, hresult⟩
  obtain ⟨hadd, hremove, -⟩ := refused_iff r {}
  have hnumber : decodeIdentities rolesKey number.data =
      .error (.store (.undecodable rolesKey (.notSequence "int"))) := by decide +kernel
  have hvalued : ∀ key ∈ Half.identities.keys, ∀ f, ¬ number.data.Unvalued key f := by
    simp only [Half.keys, List.forall_mem_cons]
    refine ⟨?_, fun f => Data.not_unvalued_of_absent rfl, by simp⟩
    exact (settled_decodeIdentities rolesKey number.data).reported_iff.mp (Or.inr ⟨_, hnumber⟩)
  refine ⟨(hadd "bob" [] []).1.mpr (by decide), ?_, ?_, ?_, ?_, ?_⟩
  · exact named _ (List.Subset.refl _) (by simp) (((hadd role.arn [] []).2.2 (by decide)).2 _ hrs)
  · refine (((refused_iff number {}).1 role.arn [] []).2.2 (by decide)).1 hvalued |>.mpr ?_
    intro rs hread
    rw [Resource.identities, decodeRecords, hnumber] at hread
    cases hread
  · exact (hremove (.text "bob") _ hrs).1.mpr (by decide)
  · have hfirst := (hremove (.text role.arn) _ hrs).2 [] role [stray] rfl (by simp) rfl
    exact named _ (by simp) (by simp) hfirst
  · have hfirst := (hremove (.text stray.arn) _ hrs).2 [role] stray [] rfl (by decide) rfl
    exact hfirst.accepted (by decide)

end Call

end AuthMap
