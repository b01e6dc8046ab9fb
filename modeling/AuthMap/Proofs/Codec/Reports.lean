import AuthMap.Codec
import AuthMap.Proofs.Session

/-! What keeps a stored text from being read. All faults are reported under the key of the text,
except that of a scalar which has no value: it is let through as it is. -/

namespace AuthMap

open Yaml (Document Element ValueFault)

/-- A call returns, or its error is that the key cannot be decoded. -/
def Reported {α : Type} (key : String) (result : Except Trouble α) : Prop :=
  (∃ a, result = .ok a) ∨ ∃ reason, result = .error (.store (.undecodable key reason))

/-- Loading the text of a key ends at a scalar that has no value. -/
def Data.Unvalued (key : String) (data : Data) (f : ValueFault) : Prop :=
  ∃ text, data.get? key = some text ∧ Text.trim text.toList ≠ [] ∧
    Document.ofChars text.toList = .error (.value f)

namespace Data

variable {key : String} {data : Data} {f f' : ValueFault}

theorem unvalued_iff {text : String} (hget : data.get? key = some text) :
    data.Unvalued key f ↔
      Text.trim text.toList ≠ [] ∧ Document.ofChars text.toList = .error (.value f) := by
  constructor
  · rintro ⟨text', hget', hf⟩
    obtain rfl : text = text' := Option.some.inj (hget.symm.trans hget')
    exact hf
  · intro hf
    exact ⟨text, hget, hf⟩

theorem not_unvalued_of_absent (hget : data.get? key = none) : ¬ data.Unvalued key f := by
  rintro ⟨text, htext, -⟩
  rw [hget] at htext
  cases htext

theorem Unvalued.unique (h : data.Unvalued key f) (h' : data.Unvalued key f') : f = f' := by
  obtain ⟨text, hget, -, hf⟩ := h
  have hf' := ((unvalued_iff hget).mp h').2
  rw [hf] at hf'
  cases hf'
  rfl

end Data

/-- Either the key is reported and there is no such scalar, or its fault is let through. -/
def Settled {α : Type} (key : String) (data : Data) (result : Except Trouble α) : Prop :=
  Reported key result ∧ (∀ f, ¬ data.Unvalued key f) ∨
    ∃ f, result = .error (.value f) ∧ data.Unvalued key f

theorem Reported.mapM {α β : Type} {key : String} {f : α → Except Trouble β} {xs : List α}
    (h : ∀ x ∈ xs, Reported key (f x)) : Reported key (xs.mapM f) := by
  induction xs with
  | nil => exact Or.inl ⟨[], rfl⟩
  | cons x xs ih =>
    rw [List.mapM_cons]
    rcases h x List.mem_cons_self with ⟨y, hy⟩ | ⟨reason, hreason⟩
    · rcases ih fun z hz => h z (List.mem_cons_of_mem _ hz) with ⟨ys, hys⟩ | ⟨reason, hreason⟩
      · exact Or.inl ⟨y :: ys, by rw [hy, hys]; rfl⟩
      · exact Or.inr ⟨reason, by rw [hy, hreason]; rfl⟩
    · exact Or.inr ⟨reason, by rw [hreason]; rfl⟩

theorem Settled.bind {α β : Type} {key : String} {data : Data} {result : Except Trouble α}
    {next : α → Except Trouble β} (h : Settled key data result)
    (hnext : ∀ a, Reported key (next a)) : Settled key data (result >>= next) := by
  rcases h with ⟨⟨a, rfl⟩ | ⟨reason, rfl⟩, hvalued⟩ | ⟨f, rfl, hf⟩
  · exact Or.inl ⟨hnext a, hvalued⟩
  · exact Or.inl ⟨Or.inr ⟨reason, rfl⟩, hvalued⟩
  · exact Or.inr ⟨f, rfl, hf⟩

/-! ### One key -/

theorem settled_loadEntries (key : String) (data : Data) :
    Settled key data (loadEntries key data) := by
  cases hget : data.get? key with
  | none =>
    refine Or.inl ⟨Or.inl ?_, fun f => Data.not_unvalued_of_absent hget⟩
    simp only [loadEntries, hget, Option.map_none]
    exact ⟨_, rfl⟩
  | some text =>
    have hunvalued {f : ValueFault} := Data.unvalued_iff (f := f) hget
    cases htrim : Text.trim text.toList with
    | nil =>
      refine Or.inl ⟨Or.inl ?_, fun f hf => (hunvalued.mp hf).1 htrim⟩
      simp only [loadEntries, hget, Option.map_some, htrim]
      exact ⟨_, rfl⟩
    | cons c cs =>
      have hload : ∀ f, data.Unvalued key f ↔ Document.ofChars text.toList = .error (.value f) := by
        intro f
        simp [hunvalued, htrim]
      unfold Settled
      simp only [loadEntries, hget, Option.map_some, htrim, hload]
      -- what loading comes to decides, and whatever has been loaded is reported
      cases Document.ofChars text.toList with
      | error fault =>
        cases fault with
        | malformed => exact Or.inl ⟨Or.inr ⟨.malformed, rfl⟩, nofun⟩
        | value f => exact Or.inr ⟨f, rfl, rfl⟩
      | ok document =>
        refine Or.inl ⟨?_, nofun⟩
        cases document with
        | none => exact Or.inl ⟨_, rfl⟩
        | some d =>
          dsimp only
          split
          · exact Or.inl ⟨_, rfl⟩
          · exact Or.inl ⟨_, rfl⟩
          · exact Or.inr ⟨_, rfl⟩

theorem reported_decodeIdentity (key : String) (d : Document) (e : Element × Nat) :
    Reported key (decodeIdentity key d e) := by
  unfold decodeIdentity
  split
  · exact Or.inl ⟨_, rfl⟩
  · exact Or.inr ⟨_, rfl⟩

theorem reported_decodeAccount (d : Document) (e : Element × Nat) :
    Reported accountsKey (decodeAccount d e) := by
  unfold decodeAccount
  dsimp only
  split
  · split
    · exact Or.inl ⟨_, rfl⟩
    · exact Or.inr ⟨_, rfl⟩
  · exact Or.inr ⟨_, rfl⟩

theorem settled_decodeIdentities (key : String) (data : Data) :
    Settled key data (decodeIdentities key data) :=
  (settled_loadEntries key data).bind fun loaded =>
    Reported.mapM fun e _ => reported_decodeIdentity key loaded.1 e

theorem settled_decodeAccounts (data : Data) :
    Settled accountsKey data (decodeAccounts data) :=
  (settled_loadEntries accountsKey data).bind fun loaded =>
    Reported.mapM fun e _ => reported_decodeAccount loaded.1 e

section Settled

variable {α : Type} {key : String} {data : Data} {result : Except Trouble α}

theorem Settled.reported_iff (h : Settled key data result) :
    Reported key result ↔ ∀ f, ¬ data.Unvalued key f := by
  rcases h with ⟨hreported, hvalued⟩ | ⟨f, rfl, hf⟩
  · exact ⟨fun _ => hvalued, fun _ => hreported⟩
  · refine ⟨?_, fun hvalued => absurd hf (hvalued f)⟩
    rintro (⟨a, ha⟩ | ⟨reason, hreason⟩)
    · cases ha
    · cases hreason

/-- An error reports the key, or is the fault of a scalar without a value. -/
theorem Settled.eq_of_error (h : Settled key data result) {t : Trouble} (ht : result = .error t) :
    (∃ reason, t = .store (.undecodable key reason)) ∧ (∀ f, ¬ data.Unvalued key f) ∨
      ∃ f, t = .value f ∧ data.Unvalued key f := by
  rcases h with ⟨⟨a, rfl⟩ | ⟨reason, rfl⟩, hvalued⟩ | ⟨f, rfl, hf⟩
  · cases ht
  · cases ht
    exact Or.inl ⟨⟨reason, rfl⟩, hvalued⟩
  · cases ht
    exact Or.inr ⟨f, rfl, hf⟩

theorem Settled.value_iff (h : Settled key data result) (f : ValueFault) :
    result = .error (.value f) ↔ data.Unvalued key f := by
  constructor
  · intro ht
    rcases h.eq_of_error ht with ⟨⟨reason, hreason⟩, -⟩ | ⟨f', hvalue, hf'⟩
    · cases hreason
    · cases hvalue
      exact hf'
  · intro hf
    rcases h with ⟨-, hvalued⟩ | ⟨f', hresult, hf'⟩
    · exact absurd hf (hvalued f)
    · rw [hresult, hf'.unique hf]

end Settled

/-! ### All keys -/

def trouble? (data : Data) (key : String) : Option Trouble :=
  let error? {α : Type} (result : Except Trouble α) : Option Trouble :=
    match result with
    | .ok _ => none
    | .error t => some t
  if key = accountsKey then error? (decodeAccounts data) else error? (decodeIdentities key data)

def firstFailing? (data : Data) : Option String :=
  [rolesKey, usersKey, accountsKey].find? fun key => (trouble? data key).isSome

/-- A snapshot is decoded, or its error is that the first failing key cannot be. -/
def SnapshotReported (data : Data) : Prop :=
  (∃ s, decodeSnapshot data = .ok s) ∨ ∃ key reason, firstFailing? data = some key ∧
    decodeSnapshot data = .error (.store (.undecodable key reason))

theorem trouble?_eq_some {data : Data} {key : String} {t : Trouble}
    (h : trouble? data key = some t) :
    (∃ reason, t = .store (.undecodable key reason)) ∧ (∀ f, ¬ data.Unvalued key f) ∨
      ∃ f, t = .value f ∧ data.Unvalued key f := by
  unfold trouble? at h
  dsimp only at h
  split at h
  · next hkey =>
    subst hkey
    apply (settled_decodeAccounts data).eq_of_error
    cases hr : decodeAccounts data with
    | ok accounts => simp [hr] at h
    | error t' => simpa [hr] using h
  · apply (settled_decodeIdentities key data).eq_of_error
    cases hr : decodeIdentities key data with
    | ok records => simp [hr] at h
    | error t' => simpa [hr] using h

theorem decodeSnapshot_of_firstFailing (data : Data) :
    match firstFailing? data with
    | none => ∃ s, decodeSnapshot data = .ok s
    | some key => ∃ t, trouble? data key = some t ∧ decodeSnapshot data = .error t := by
  have hroles : rolesKey ≠ accountsKey := by decide
  have husers : usersKey ≠ accountsKey := by decide
  cases hr : decodeIdentities rolesKey data with
  | error t =>
    simp [firstFailing?, trouble?, hroles, hr, decodeSnapshot, decodeRecords, bind, Except.bind]
  | ok roles =>
    cases hu : decodeIdentities usersKey data with
    | error t =>
      simp [firstFailing?, trouble?, hroles, husers, hr, hu, decodeSnapshot, decodeRecords, bind,
        Except.bind]
    | ok users =>
      cases ha : decodeAccounts data with
      | error t =>
        simp [firstFailing?, trouble?, hroles, husers, hr, hu, ha, decodeSnapshot, decodeRecords,
          bind, Except.bind, pure, Except.pure]
      | ok accounts =>
        simp [firstFailing?, trouble?, hroles, husers, hr, hu, ha, decodeSnapshot, decodeRecords,
          bind, Except.bind, pure, Except.pure]

theorem settled_decodeSnapshot (data : Data) :
    SnapshotReported data ∧ (∀ key f, firstFailing? data = some key → ¬ data.Unvalued key f) ∨
      ∃ key f, firstFailing? data = some key ∧ data.Unvalued key f ∧
        decodeSnapshot data = .error (.value f) := by
  have hfirst := decodeSnapshot_of_firstFailing data
  cases hkey : firstFailing? data with
  | none =>
    rw [hkey] at hfirst
    exact Or.inl ⟨Or.inl hfirst, nofun⟩
  | some key =>
    rw [hkey] at hfirst
    obtain ⟨t, ht, hsnapshot⟩ := hfirst
    rcases trouble?_eq_some ht with ⟨⟨reason, rfl⟩, hvalued⟩ | ⟨f, rfl, hf⟩
    · refine Or.inl ⟨Or.inr ⟨key, reason, hkey, hsnapshot⟩, ?_⟩
      intro key' f hkey'
      obtain rfl := Option.some.inj hkey'
      exact hvalued f
    · exact Or.inr ⟨key, f, rfl, hf, hsnapshot⟩

theorem snapshotReported_iff (data : Data) : SnapshotReported data ↔
    ∀ key f, firstFailing? data = some key → ¬ data.Unvalued key f := by
  rcases settled_decodeSnapshot data with ⟨hreported, hvalued⟩ | ⟨key, f, hkey, hf, hsnapshot⟩
  · exact ⟨fun _ => hvalued, fun _ => hreported⟩
  · refine ⟨?_, fun hvalued => absurd hf (hvalued key f hkey)⟩
    rintro (⟨s, hs⟩ | ⟨key', reason, -, hreason⟩)
    · rw [hsnapshot] at hs
      cases hs
    · rw [hsnapshot] at hreason
      cases hreason

theorem decodeSnapshot_value_iff (data : Data) (f : ValueFault) :
    decodeSnapshot data = .error (.value f) ↔
      ∃ key, firstFailing? data = some key ∧ data.Unvalued key f := by
  rcases settled_decodeSnapshot data with ⟨hreported, hvalued⟩ | ⟨key, f', hkey, hf', hsnapshot⟩
  · constructor
    · intro hf
      rcases hreported with ⟨s, hs⟩ | ⟨key, reason, -, hreason⟩
      · rw [hf] at hs
        cases hs
      · rw [hf] at hreason
        cases hreason
    · rintro ⟨key, hkey, hf⟩
      exact absurd hf (hvalued key f hkey)
  · rw [hsnapshot]
    constructor
    · intro hf
      cases hf
      exact ⟨key, hkey, hf'⟩
    · rintro ⟨key', hkey', hf⟩
      obtain rfl : key = key' := Option.some.inj (hkey.symm.trans hkey')
      rw [hf.unique hf']

/-- A call on a key returns or reports the key, unless there is a scalar without a value in its
text; the fault of that is what comes out then. For a snapshot the first failing key decides. The
limit that an interpreter puts on the depth of nested texts is left out. -/
theorem reported_iff_forall_not_unvalued (data : Data) :
    (∀ key, (Reported key (decodeIdentities key data) ↔ ∀ f, ¬ data.Unvalued key f) ∧
        ∀ f, decodeIdentities key data = .error (.value f) ↔ data.Unvalued key f) ∧
      ((Reported accountsKey (decodeAccounts data) ↔ ∀ f, ¬ data.Unvalued accountsKey f) ∧
        ∀ f, decodeAccounts data = .error (.value f) ↔ data.Unvalued accountsKey f) ∧
      (SnapshotReported data ↔ ∀ key f, firstFailing? data = some key → ¬ data.Unvalued key f) ∧
        ∀ f, decodeSnapshot data = .error (.value f) ↔
          ∃ key, firstFailing? data = some key ∧ data.Unvalued key f :=
  ⟨fun key => ⟨(settled_decodeIdentities key data).reported_iff,
      (settled_decodeIdentities key data).value_iff⟩,
    ⟨(settled_decodeAccounts data).reported_iff, (settled_decodeAccounts data).value_iff⟩,
    snapshotReported_iff data, decodeSnapshot_value_iff data⟩

/-- A date in a thirteenth month: the key is not reported. -/
theorem not_reported_month :
    let data : Data := [(rolesKey, "- 2024-13-01\n")]
    decodeIdentities rolesKey data = .error (.value .month) ∧
      ¬ Reported rolesKey (decodeIdentities rolesKey data) := by
  intro data
  have hload : Document.ofChars "- 2024-13-01\n".toList = .error (.value .month) :=
    Except.eq_error_of_error? (by decide +kernel)
  have htrim : Text.trim "- 2024-13-01\n".toList ≠ [] := by decide +kernel
  have hmonth : data.Unvalued rolesKey .month := ⟨"- 2024-13-01\n", rfl, htrim, hload⟩
  have hsettled := settled_decodeIdentities rolesKey data
  exact ⟨(hsettled.value_iff .month).mpr hmonth,
    fun hreported => hsettled.reported_iff.mp hreported .month hmonth⟩

end AuthMap
