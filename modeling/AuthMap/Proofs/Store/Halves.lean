import AuthMap.Proofs.Store.Refinement

/-! Identities and accounts are kept apart. A call reads the texts of its own half and writes no
others, so that what is done to one half does not show in the other. -/

namespace AuthMap

inductive Half where
  | identities
  | accounts
  deriving DecidableEq, Repr

namespace Half

def keys : Half → List String
  | .identities => [rolesKey, usersKey]
  | .accounts => [accountsKey]

/-- The texts of one half, each of which may be missing. -/
def texts (k : Half) (r : Resource) : List (Option String) := k.keys.map fun key => r.data.get? key

variable {k : Half} {r r' : Resource}

theorem texts_eq_iff :
    k.texts r = k.texts r' ↔ ∀ key ∈ k.keys, r.data.get? key = r'.data.get? key :=
  List.map_inj_left

theorem notMem_keys_of_ne {k' : Half} (h : k' ≠ k) {key : String} (hkey : key ∈ k.keys) :
    key ∉ k'.keys := by
  revert key
  cases k <;> cases k' <;> first | exact absurd rfl h | decide

end Half

/-! ### Texts that are updated -/

theorem Data.get?_update_congr {key : String} (new : Data) {d d' : Data}
    (h : d.get? key = d'.get? key) : (d.update new).get? key = (d'.update new).get? key := by
  induction new generalizing d d' with
  | nil => exact h
  | cons e new ih =>
    refine ih ?_
    rw [Data.get?_set, Data.get?_set, h]

theorem Half.texts_withData {k : Half} {r r' : Resource} (h : k.texts r = k.texts r') (new : Data) :
    k.texts (r.withData new) = k.texts (r'.withData new) := by
  rw [texts_eq_iff] at h ⊢
  exact fun key hkey => Data.get?_update_congr new (h key hkey)

theorem Half.texts_withData_of_notMem {k : Half} {new : Data} (r : Resource)
    (h : ∀ e ∈ new, e.1 ∉ k.keys) : k.texts (r.withData new) = k.texts r :=
  texts_eq_iff.mpr fun _ hkey =>
    Data.get?_update_of_ne (fun e he heq => h e he (heq ▸ hkey)) r.data

/-! ### What one call does -/

namespace Call

def half : Call → Half
  | .addIdentity _ _ _ | .removeIdentity _ _ | .identities | .get _ | .find _ => .identities
  | .addAccount _ | .removeAccount _ | .accounts => .accounts

/-- The answer to a call, the texts that it writes, and the events that it logs. -/
def effect (c : Call) (r : Resource) : Except Trouble ((Answer × Data) × List Event) :=
  match c with
  | .addIdentity p username groups => do
    let record ← StoreError.lift (newIdentity p username groups)
    let held ← r.identitySnapshot
    let s ← StoreError.lift (held.addIdentity record)
    pure ((.record record, identityTexts s.roles s.users), [Resource.identityAdded record])
  | .removeIdentity p all => do
    let held ← r.identitySnapshot
    let s ← StoreError.lift (held.removeIdentity p all)
    let gone := Resource.removed p all held
    pure ((.count gone.length, identityTexts s.roles s.users), gone.map Resource.identityRemoved)
  | .addAccount account => do
    let s : Snapshot := { accounts := ← r.accounts }
    pure ((.done, encodeAccounts (s.addAccount account).accounts), [Resource.accountAdded account])
  | .removeAccount account => do
    let held ← r.accounts
    let s ← StoreError.lift (Snapshot.removeAccount account { accounts := held })
    pure ((.done, encodeAccounts s.accounts), [Resource.accountRemoved account])
  | .identities => do pure ((.records (← r.identities), []), [])
  | .get p => do pure ((.records (← r.get p), []), [])
  | .find p => do pure ((.records (← r.find p), []), [])
  | .accounts => do pure ((.accounts (← r.accounts), []), [])

theorem read_eq_told {α : Type} (x : Except Trouble α) (f : α → Answer) (r : Resource) :
    (do pure (f (← Work.ofExcept x), r) : Work (Answer × Resource)) = Work.told
      ((do pure ((f (← x), []), []) : Except Trouble ((Answer × Data) × List Event)).map
        fun e => ((e.1.1, r.withData e.1.2), e.2)) := by
  cases x with
  | error t => rfl
  | ok a => exact Work.pure_eq (f a, r)

/-- A call does nothing but answer, write its texts and log. -/
theorem perform_eq_told (c : Call) (r : Resource) :
    c.perform r = Work.told ((c.effect r).map fun e => ((e.1.1, r.withData e.1.2), e.2)) := by
  cases c with
  | addIdentity p username groups =>
    rw [perform, Resource.addIdentity_eq, effect]
    cases newIdentity p username groups with
    | error e => rfl
    | ok record =>
      rw [StoreError.lift, Except.bind_ok, Except.bind_ok]
      cases r.identitySnapshot with
      | error t => rfl
      | ok held =>
        rw [Except.bind_ok, Except.bind_ok]
        cases held.addIdentity record <;> rfl
  | removeIdentity p all =>
    rw [perform, Resource.removeIdentity_eq, effect]
    cases r.identitySnapshot with
    | error t => rfl
    | ok held =>
      rw [Except.bind_ok, Except.bind_ok]
      cases held.removeIdentity p all <;> rfl
  | addAccount account =>
    rw [perform, Resource.addAccount_eq, effect]
    cases r.accounts <;> rfl
  | removeAccount account =>
    rw [perform, Resource.removeAccount_eq, effect]
    cases r.accounts with
    | error t => rfl
    | ok held =>
      rw [Except.bind_ok, Except.bind_ok]
      dsimp only
      cases Snapshot.removeAccount account { accounts := held } <;> rfl
  | identities => exact read_eq_told r.identities .records r
  | get p => exact read_eq_told (r.get p) .records r
  | find p => exact read_eq_told (r.find p) .records r
  | accounts => exact read_eq_told r.accounts .accounts r

variable {c : Call} {r r' : Resource}

theorem effect_congr (h : c.half.texts r = c.half.texts r') : c.effect r = c.effect r' := by
  rw [Half.texts_eq_iff] at h
  have hidentities (hc : c.half = .identities) : r.identities = r'.identities := by
    rw [hc] at h
    exact decodeRecords_congr (h rolesKey (by decide)) (h usersKey (by decide))
  have haccounts (hc : c.half = .accounts) : r.accounts = r'.accounts := by
    rw [hc] at h
    exact decodeAccounts_congr (h accountsKey (by decide))
  have hsnapshot (hc : c.half = .identities) : r.identitySnapshot = r'.identitySnapshot := by
    have hs (r : Resource) : r.identitySnapshot = (do pure { records := ← r.identities }) := rfl
    rw [hs, hs, hidentities hc]
  cases c with
  | addIdentity p username groups => simp only [effect, hsnapshot rfl]
  | removeIdentity p all => simp only [effect, hsnapshot rfl]
  | addAccount account => simp only [effect, haccounts rfl]
  | removeAccount account => simp only [effect, haccounts rfl]
  | identities => simp only [effect, hidentities rfl]
  | get p => simp only [effect, Resource.get, hsnapshot rfl]
  | find p => simp only [effect, Resource.find, hsnapshot rfl]
  | accounts => simp only [effect, haccounts rfl]

theorem mem_keys_of_effect {a : Answer} {new : Data} {es : List Event}
    (h : c.effect r = .ok ((a, new), es)) : ∀ e ∈ new, e.1 ∈ c.half.keys := by
  cases c with
  | addIdentity p username groups =>
    simp only [effect, Except.bind_eq_ok] at h
    obtain ⟨record, -, held, -, s, -, h⟩ := h
    cases h
    simp [identityTexts, half, Half.keys]
  | removeIdentity p all =>
    simp only [effect, Except.bind_eq_ok] at h
    obtain ⟨held, -, s, -, h⟩ := h
    cases h
    simp [identityTexts, half, Half.keys]
  | addAccount account =>
    simp only [effect, Except.bind_eq_ok] at h
    obtain ⟨held, -, h⟩ := h
    cases h
    simp [encodeAccounts, half, Half.keys]
  | removeAccount account =>
    simp only [effect, Except.bind_eq_ok] at h
    obtain ⟨held, -, s, -, h⟩ := h
    cases h
    simp [encodeAccounts, half, Half.keys]
  | identities | get | find | accounts =>
    simp only [effect, Except.bind_eq_ok] at h
    obtain ⟨answer, -, h⟩ := h
    cases h
    simp

/-- What is held after a call: if it fails, what was held before. -/
def next (c : Call) (r : Resource) : Resource :=
  match c.effect r with
  | .ok e => r.withData e.1.2
  | .error _ => r

theorem exists_next_eq (c : Call) (r : Resource) :
    ∃ new, (∀ e ∈ new, e.1 ∈ c.half.keys) ∧ c.next r = r.withData new := by
  unfold next
  cases h : c.effect r with
  | error t => exact ⟨[], by simp, rfl⟩
  | ok e => exact ⟨e.1.2, mem_keys_of_effect h, rfl⟩

theorem texts_next_congr (h : c.half.texts r = c.half.texts r') :
    c.half.texts (c.next r) = c.half.texts (c.next r') := by
  unfold next
  rw [effect_congr h]
  cases c.effect r' with
  | error t => exact h
  | ok e => exact Half.texts_withData h e.1.2

theorem texts_next_of_ne {k : Half} (hc : c.half ≠ k) : k.texts (c.next r) = k.texts r := by
  obtain ⟨new, hnew, heq⟩ := exists_next_eq c r
  rw [heq]
  exact Half.texts_withData_of_notMem r fun e he hk =>
    Half.notMem_keys_of_ne hc hk (hnew e he)

/-! ### Calls one after the other -/

theorem performAll_cons (c : Call) (cs : List Call) (r : Resource) (σ : Session) :
    ∃ σ', performAll (c :: cs) r σ =
      ((c.effect r).map (·.1.1), c.next r) :: performAll cs (c.next r) σ' := by
  rw [performAll, perform_eq_told, next]
  cases c.effect r with
  | error t => exact ⟨_, rfl⟩
  | ok e => exact ⟨_, rfl⟩

/-- What shows of one half while calls are made: the answers to the calls about it, each with the
texts of that half then. -/
def observed (k : Half) (cs : List Call) (r : Resource) (σ : Session) :
    List (Except Trouble Answer × List (Option String)) :=
  ((cs.zip (performAll cs r σ)).filter fun e => e.1.half = k).map fun e => (e.2.1, k.texts e.2.2)

theorem observed_cons (k : Half) (c : Call) (cs : List Call) (r : Resource) (σ : Session) :
    ∃ σ', observed k (c :: cs) r σ =
      if c.half = k then
        ((c.effect r).map (·.1.1), k.texts (c.next r)) :: observed k cs (c.next r) σ'
      else observed k cs (c.next r) σ' := by
  obtain ⟨σ', h⟩ := performAll_cons c cs r σ
  refine ⟨σ', ?_⟩
  rw [observed, h, List.zip_cons_cons, List.filter_cons]
  by_cases hc : c.half = k
  · simp only [hc, decide_true, if_true, List.map_cons, observed]
  · simp only [hc, decide_false, Bool.false_eq_true, if_false, observed]

/-- The calls about the other half might as well not have been made. -/
theorem observed_eq_observed_filter (k : Half) (cs : List Call) {r r' : Resource} (σ σ' : Session)
    (h : k.texts r = k.texts r') :
    observed k cs r σ = observed k (cs.filter fun c => c.half = k) r' σ' := by
  -- whatever has been called so far, the texts of this half are the same on both sides
  induction cs generalizing r r' σ σ' with
  | nil => rfl
  | cons c cs ih =>
    obtain ⟨σ₁, hleft⟩ := observed_cons k c cs r σ
    by_cases hc : c.half = k
    · subst hc
      obtain ⟨σ₂, hright⟩ := observed_cons c.half c (cs.filter fun d => d.half = c.half) r' σ'
      have hnext := texts_next_congr h
      rw [List.filter_cons_of_pos (by simp), hleft, hright, if_pos rfl, if_pos rfl,
        effect_congr h, hnext, ih σ₁ σ₂ hnext]
    · rw [List.filter_cons_of_neg (by simpa using hc), hleft, if_neg hc]
      exact ih σ₁ σ' ((texts_next_of_ne hc).trans h)

theorem exists_performAll_eq (cs : List Call) (r : Resource) (σ : Session) :
    ∀ x ∈ performAll cs r σ,
      ∃ new, (∀ e ∈ new, ∃ c ∈ cs, e.1 ∈ c.half.keys) ∧ x.2 = r.withData new := by
  induction cs generalizing r σ with
  | nil => simp [performAll]
  | cons c cs ih =>
    obtain ⟨σ', h⟩ := performAll_cons c cs r σ
    obtain ⟨new, hnew, hnext⟩ := exists_next_eq c r
    have hhead : ∀ e ∈ new, ∃ d ∈ c :: cs, e.1 ∈ d.half.keys := fun e he =>
      ⟨c, List.mem_cons_self, hnew e he⟩
    rw [h, List.forall_mem_cons]
    refine ⟨⟨new, hhead, hnext⟩, fun x hx => ?_⟩
    obtain ⟨later, hlater, heq⟩ := ih (c.next r) σ' x hx
    refine ⟨new ++ later, fun e he => ?_, ?_⟩
    · rcases List.mem_append.mp he with he | he
      · exact hhead e he
      · obtain ⟨d, hd, hkey⟩ := hlater e he
        exact ⟨d, List.mem_cons_of_mem c hd, hkey⟩
    · rw [heq, hnext]
      simp only [Resource.withData, Data.update, List.foldl_append]

/-- Texts that none of the calls is about are as they were, and so is all that is not data. -/
def KeepsRest (cs : List Call) (r r' : Resource) : Prop :=
  (∀ key, (∀ c ∈ cs, key ∉ c.half.keys) → r'.data.get? key = r.data.get? key) ∧
    { r' with data := r.data } = r

theorem keepsRest_performAll (cs : List Call) (r : Resource) (σ : Session) :
    ∀ x ∈ performAll cs r σ, KeepsRest cs r x.2 := by
  intro x hx
  obtain ⟨new, hnew, heq⟩ := exists_performAll_eq cs r σ x hx
  rw [heq]
  refine ⟨fun key hkey => Data.get?_update_of_ne (fun e he heq => ?_) r.data, rfl⟩
  obtain ⟨c, hc, hmem⟩ := hnew e he
  exact hkey c hc (heq ▸ hmem)

/-- Two held objects with the same texts of one half answer the calls about it alike, and hold the
same texts of it after each of them, whatever else they hold and whatever calls about the other half
come in between. The rest of both stays as it is. -/
theorem observed_congr {k : Half} {cs ds : List Call} {r r' : Resource} (σ σ' : Session)
    (hcalls : (cs.filter fun c => c.half = k) = ds.filter fun c => c.half = k)
    (htexts : k.texts r = k.texts r') :
    observed k cs r σ = observed k ds r' σ' ∧
      (∀ x ∈ performAll cs r σ, KeepsRest cs r x.2) ∧
        ∀ x ∈ performAll ds r' σ', KeepsRest ds r' x.2 := by
  refine ⟨?_, keepsRest_performAll cs r σ, keepsRest_performAll ds r' σ'⟩
  rw [observed_eq_observed_filter k cs σ {} htexts, hcalls,
    observed_eq_observed_filter k ds σ' {} rfl]

/-- One object holds accounts that cannot be read, the other none. That does not show in the
identities, also where an account was to be added in between, and the accounts stay as they are. -/
theorem observed_congr_corrupt :
    let texts := identityTexts [] [⟨"arn:aws:iam::1:user/ann", "ann", []⟩]
    let r : Resource := { data := texts ++ [("other", "x")], labels := [("a", "b")] }
    let r' : Resource := { data := (accountsKey, "[") :: texts, uid := "u" }
    let ds := [addIdentity (.text "arn:aws:iam::1:role/ops") "ops" [], find (.text "ann"),
      removeIdentity (.text "arn:aws:iam::1:user/ann") false]
    observed .identities (addAccount "1" :: ds) r {} = observed .identities ds r' {} ∧
      ∀ x ∈ performAll ds r' {}, x.2.data.get? accountsKey = some "[" ∧ x.2.uid = "u" := by
  intro texts r r' ds
  have hcalls : ((addAccount "1" :: ds).filter fun c => c.half = .identities) =
      ds.filter fun c => c.half = .identities := rfl
  have htexts : Half.identities.texts r = Half.identities.texts r' := rfl
  obtain ⟨hobserved, -, hrest⟩ := observed_congr {} {} hcalls htexts
  refine ⟨hobserved, fun x hx => ?_⟩
  obtain ⟨hdata, hother⟩ := hrest x hx
  exact ⟨hdata accountsKey (by decide), congrArg Resource.uid hother⟩

end Call

end AuthMap
