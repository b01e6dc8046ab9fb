import AuthMap.Proofs.Cluster.Commands
import AuthMap.Proofs.Store.Refusal

/-! Which errors can come up. Those of the store each have an exit code of their own; the fault of a
scalar without a value is none of them. -/

namespace AuthMap

open Yaml (ValueFault)

/-! ### Errors that have an exit code -/

/-- An error of the store with an exit code other than that for all the rest. -/
def Trouble.IsListed (t : Trouble) : Prop := ∃ e, t = .store e ∧ Cli.exitCodeFor e ≠ .general

/-- An error of the store that comes from what is stored and asked for, and from no request. -/
def Trouble.IsOwn (t : Trouble) : Prop :=
  ∃ e, t = .store e ∧ (Cli.exitCodeFor e = .invalid ∨ Cli.exitCodeFor e = .notFound)

theorem Trouble.IsOwn.isListed {t : Trouble} (h : t.IsOwn) : t.IsListed := by
  obtain ⟨e, ht, hcode | hcode⟩ := h
  · exact ⟨e, ht, fun hgeneral => by cases hcode.symm.trans hgeneral⟩
  · exact ⟨e, ht, fun hgeneral => by cases hcode.symm.trans hgeneral⟩

/-- Reading the texts of one half, one after the other, ends at a scalar without a value. -/
def Half.Unvalued (k : Half) (r : Resource) (f : ValueFault) : Prop :=
  match k with
  | .identities => r.data.Unvalued rolesKey f ∨
      (∃ roles, decodeIdentities rolesKey r.data = .ok roles) ∧ r.data.Unvalued usersKey f
  | .accounts => r.data.Unvalued accountsKey f

/-- If there is an error, it comes from no request, or is the fault of a scalar without a value. -/
def Known {α : Type} (x : Except Trouble α) : Prop :=
  ∀ t, x = .error t → t.IsOwn ∨ ∃ f, t = .value f

section Known

variable {α β : Type}

theorem Known.pure (a : α) : Known (Except.ok a) := nofun

theorem Known.bind {x : Except Trouble α} {f : α → Except Trouble β} (hx : Known x)
    (hf : ∀ a, Known (f a)) : Known (x >>= f) := by
  intro t h
  rcases Except.bind_eq_error.mp h with h | ⟨a, -, h⟩
  · exact hx t h
  · exact hf a t h

theorem Known.lift {x : Except StoreError α}
    (h : ∀ e, x = .error e → Trouble.IsOwn (.store e)) : Known (StoreError.lift x) := by
  intro t ht
  obtain ⟨e, he, rfl⟩ := StoreError.lift_eq_error.mp ht
  exact Or.inl (h e he)

theorem Settled.known {key : String} {data : Data} {x : Except Trouble α}
    (h : Settled key data x) : Known x := by
  intro t ht
  rcases h.eq_of_error ht with ⟨⟨reason, rfl⟩, -⟩ | ⟨f, rfl, -⟩
  · exact Or.inl ⟨_, rfl, Or.inl rfl⟩
  · exact Or.inr ⟨f, rfl⟩

end Known

section Reading

variable {r : Resource} {t : Trouble} {f : ValueFault}

theorem Resource.known_identities (r : Resource) : Known r.identities :=
  (settled_decodeIdentities rolesKey r.data).known.bind fun _ =>
    (settled_decodeIdentities usersKey r.data).known.bind fun _ => .pure _

theorem Resource.known_identitySnapshot (r : Resource) : Known r.identitySnapshot :=
  r.known_identities.bind fun _ => .pure _

theorem Resource.known_accounts (r : Resource) : Known r.accounts :=
  (settled_decodeAccounts r.data).known

theorem Resource.identities_eq_value_iff :
    r.identities = .error (.value f) ↔ Half.identities.Unvalued r f := by
  have hroles := (settled_decodeIdentities rolesKey r.data).value_iff f
  have husers := (settled_decodeIdentities usersKey r.data).value_iff f
  rw [Resource.identities_eq_error, hroles, husers, Half.Unvalued]

theorem Resource.identitySnapshot_eq_error :
    r.identitySnapshot = .error t ↔ r.identities = .error t := by
  rw [Call.identitySnapshot_eq]
  cases r.identities <;> simp [Except.map]

theorem Resource.accounts_eq_value_iff :
    r.accounts = .error (.value f) ↔ Half.accounts.Unvalued r f :=
  (settled_decodeAccounts r.data).value_iff f

/-- Nothing is stored, so there is no scalar. -/
theorem not_unvalued_blank (g : Gateway) (k : Half) (f : ValueFault) : ¬ k.Unvalued g.blank f := by
  have habsent (key : String) : ¬ g.blank.data.Unvalued key f := Data.not_unvalued_of_absent rfl
  cases k with
  | accounts => exact habsent accountsKey
  | identities =>
    rintro (h | ⟨-, h⟩)
    · exact habsent rolesKey h
    · exact habsent usersKey h

end Reading

theorem isOwn_of_withRecords {s : Snapshot} {kept : List Identity} {e : StoreError}
    (h : s.withRecords kept = .error e) : Trouble.IsOwn (.store e) := by
  rcases s.withRecords_cases kept with ⟨-, s', hs⟩ | ⟨bad, -, hs⟩
  · rw [hs] at h
    cases h
  · rw [hs] at h
    cases h
    exact ⟨_, rfl, Or.inl rfl⟩

theorem newIdentity_of_unknown {raw : Text} (h : Arn.kindOf raw = .unknown) (username : Text)
    (groups : List Text) : ∃ e, newIdentity (.text raw) username groups = .error e ∧
      Trouble.IsOwn (.store e) := by
  cases ha : Arn.ofText? raw with
  | none =>
    exact ⟨_, newIdentity_of_malformed username groups (Arn.ofText?_eq_none_iff.mp ha), _, rfl,
      Or.inl rfl⟩
  | some a =>
    rw [Arn.kindOf_of_ofText? ha] at h
    exact ⟨_, newIdentity_of_unclassified username groups ha h, _, rfl, Or.inl rfl⟩

theorem isOwn_of_newIdentity {raw username : Text} {groups : List Text} {e : StoreError}
    (h : newIdentity (.text raw) username groups = .error e) : Trouble.IsOwn (.store e) := by
  by_cases hkind : Arn.kindOf raw = .unknown
  · obtain ⟨e', he, hown⟩ := newIdentity_of_unknown hkind username groups
    rw [he] at h
    cases h
    exact hown
  · rw [newIdentity_of_kind username groups hkind] at h
    cases h

theorem isOwn_of_removeIdentity {s : Snapshot} {p : Principal} {all : Bool} {e : StoreError}
    (h : s.removeIdentity p all = .error e) : Trouble.IsOwn (.store e) := by
  unfold Snapshot.removeIdentity at h
  split at h
  · exact isOwn_of_withRecords h
  · split at h
    · exact isOwn_of_withRecords h
    · cases h
      exact ⟨_, rfl, Or.inr rfl⟩

theorem isOwn_of_removeAccount {s : Snapshot} {account : Text} {e : StoreError}
    (h : s.removeAccount account = .error e) : Trouble.IsOwn (.store e) := by
  unfold Snapshot.removeAccount at h
  split at h
  · cases h
  · cases h
    exact ⟨_, rfl, Or.inr rfl⟩

theorem isOwn_of_find {s : Snapshot} {p : Principal} {e : StoreError}
    (h : s.find p = .error e) : Trouble.IsOwn (.store e) := by
  unfold Snapshot.find at h
  split at h
  · cases h
    exact ⟨_, rfl, Or.inr rfl⟩
  · cases h

/-! ### Requests -/

namespace Gateway

variable {g : Gateway} {r : Resource} {t : Trouble} {σ σ' : Session}

theorem isListed_reported (operation name ns : String) (e : Raised) :
    Trouble.IsListed (.store (reported operation name ns e)) := by
  refine ⟨_, rfl, ?_⟩
  unfold reported
  dsimp only
  split
  · exact nofun
  · exact nofun

/-- A fetch gives what it is answered, and the object must be one that can be read. -/
theorem fetched_cases (g : Gateway) (answer : Except Raised (Option ConfigMap)) :
    (∃ t, g.fetched answer = .error t ∧ t.IsListed) ∨ g.fetched answer = .ok g.blank ∨
      ∃ m, answer = .ok (some m) := by
  cases answer with
  | ok m =>
    cases m with
    | none => exact Or.inr (Or.inl rfl)
    | some m => exact Or.inr (Or.inr ⟨m, rfl⟩)
  | error e =>
    unfold fetched readObject
    split
    · next h => cases h
    · exact Or.inr (Or.inl rfl)
    · next e' _ h =>
      obtain rfl := Except.error.inj h
      exact Or.inl ⟨_, rfl, isListed_reported "read" g.config.name g.config.ns e⟩

theorem isListed_of_save (hapi : g.api = true) (hr : r.Backed σ.cluster)
    (h : g.save r σ = .error t σ') : t.IsListed := by
  obtain ⟨answer, σ₁, hasked, hsave⟩ := save_asked hapi r σ
  rw [hsave] at h
  cases hwritten : writtenObject r answer with
  | error t' =>
    unfold saved at h
    rw [hwritten] at h
    cases h
    cases answer with
    | ok m => cases hwritten
    | error e =>
      cases hwritten
      exact isListed_reported (saveOperation r) r.name r.ns e
  | ok m =>
    -- the write has been accepted, and what has been written can be read
    obtain rfl : answer = .ok m := by
      cases answer with
      | ok m' => exact congrArg Except.ok (Except.ok.inj hwritten)
      | error e => cases hwritten
    rcases hasked.answered with ⟨-, hserve⟩ | ⟨-, -, e, he⟩
    · rcases serve_saveRequest_cases r σ.cluster with ⟨e, hrefused⟩ | ⟨m', c', hok, haccepted⟩
      · rw [hrefused] at hserve
        cases (Prod.mk.inj hserve).1
      · rw [hok] at hserve
        cases (Prod.mk.inj hserve).1
        obtain ⟨r', hread⟩ := haccepted.ofConfigMap_eq_ok hr
        have hsaved : saved r (.ok (some m')) = .ok r' := hread
        rw [hsaved] at h
        cases h
    · cases he

/-! ### Connecting -/

/-- A gateway that has been started with what is around it. -/
def connectFrom (s : Sources) (g : Gateway) : Except StoreError Gateway :=
  (g.startup s).result.map fun _ => (g.startup s).gateway

/-- A startup fails with a listed error, or requests can be made from then on. -/
def Startup.IsSettled (g : Gateway) (x : Startup) : Prop :=
  (∃ e, x.result = .error e ∧ Trouble.IsListed (.store e)) ∨
    x.result = .ok () ∧ x.gateway.api = true ∧ x.gateway.config = g.config

theorem isSettled_failed (g : Gateway) (loads : List Load) (events : List Event) (f : LoadFault) :
    (g.failed loads events f).IsSettled g := Or.inl ⟨_, rfl, _, rfl, nofun⟩

theorem isSettled_connected (g : Gateway) (s : Sources) (loads : List Load) (event : Event) :
    (g.connected s loads event).IsSettled g := by
  unfold connected
  dsimp only
  split
  · exact isSettled_failed _ _ _ _
  · exact Or.inr ⟨rfl, rfl, rfl⟩

theorem isSettled_startup (g : Gateway) (s : Sources) : (g.startup s).IsSettled g := by
  unfold startup
  dsimp only
  split
  · split
    · exact isSettled_failed _ _ _ _
    · exact isSettled_connected _ _ _ _
  · split
    · exact isSettled_connected _ _ _ _
    · split
      · exact isSettled_failed _ _ _ _
      · exact isSettled_connected _ _ _ _
    · exact isSettled_failed _ _ _ _

theorem connectFrom_cases (s : Sources) (g : Gateway) :
    (∃ e, connectFrom s g = .error e ∧ Trouble.IsListed (.store e)) ∨
      ∃ g', connectFrom s g = .ok g' ∧ g'.api = true ∧ g'.config = g.config := by
  unfold connectFrom
  rcases isSettled_startup g s with ⟨e, he, hlisted⟩ | ⟨hok, hapi, hconfig⟩
  · rw [he]
    exact Or.inl ⟨e, rfl, hlisted⟩
  · rw [hok]
    exact Or.inr ⟨_, rfl, hapi, hconfig⟩

end Gateway

end AuthMap
