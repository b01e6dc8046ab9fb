import AuthMap.Proofs.Store.Refusal
import Mathlib.Data.Multiset.AddSub

/-! The log of the edits. A call that fails logs nothing, one that succeeds logs what it has
changed, and the log of a run, taken up event by event, leads from the first records to the
last. -/

namespace AuthMap

/-! ### Taking up a log -/

/-- The name and the user name that an event tells of. -/
def Event.mapping? (e : Event) : Option (Text × Text) :=
  match Json.field? "arn" e.fields, Json.field? "username" e.fields with
  | some (.str arn), some (.str username) => some (arn, username)
  | _, _ => none

/-- Takes up an event. What is removed has to be there. -/
def Event.replay? (held : Multiset (Text × Text)) (e : Event) : Option (Multiset (Text × Text)) :=
  match e.name with
  | "identity_added" => e.mapping?.map (· ::ₘ held)
  | "identity_removed" => e.mapping?.bind fun m => if m ∈ held then some (held.erase m) else none
  | _ => some held

def Event.tellsOfIdentity (e : Event) : Bool :=
  e.name = "identity_added" || e.name = "identity_removed"

/-- The names and user names of records, in no order. -/
def mappings (rs : List Identity) : Multiset (Text × Text) :=
  (rs.map fun x => (x.arn, x.username) : List (Text × Text))

theorem mappings_congr {rs rs' : List Identity} (h : rs.Perm rs') : mappings rs = mappings rs' :=
  Multiset.coe_eq_coe.mpr (h.map _)

theorem mappings_cons (x : Identity) (rs : List Identity) :
    mappings (x :: rs) = (x.arn, x.username) ::ₘ mappings rs := rfl

theorem replay_identityRemoved (x : Identity) (held : Multiset (Text × Text)) :
    (Resource.identityRemoved x).replay? ((x.arn, x.username) ::ₘ held) = some held := by
  have hreplay : (Resource.identityRemoved x).replay? ((x.arn, x.username) ::ₘ held) =
      if (x.arn, x.username) ∈ (x.arn, x.username) ::ₘ held
      then some (((x.arn, x.username) ::ₘ held).erase (x.arn, x.username)) else none := rfl
  rw [hreplay, if_pos (Multiset.mem_cons_self _ _), Multiset.erase_cons_head]

/-- Records that go are taken out one after the other, and leave the others. -/
theorem replay_removed (gone rs : List Identity) :
    (gone.map Resource.identityRemoved).foldlM Event.replay? (mappings (gone ++ rs)) =
      some (mappings rs) := by
  induction gone with
  | nil => rfl
  | cons x gone ih =>
    rw [List.map_cons, List.foldlM_cons, List.cons_append, mappings_cons, replay_identityRemoved]
    exact ih

theorem replay_of_not_tellsOfIdentity {es : List Event}
    (h : ∀ e ∈ es, e.tellsOfIdentity = false) (held : Multiset (Text × Text)) :
    es.foldlM Event.replay? held = some held := by
  induction es with
  | nil => rfl
  | cons e es ih =>
    rw [List.forall_mem_cons] at h
    have he : e.replay? held = some held := by
      have hname := h.1
      simp only [Event.tellsOfIdentity, Bool.or_eq_false_iff, decide_eq_false_iff_not] at hname
      unfold Event.replay?
      split
      · next hadded => exact absurd hadded hname.1
      · next hremoved => exact absurd hremoved hname.2
      · rfl
    rw [List.foldlM_cons, he]
    exact ih h.2

/-! ### Records that are taken out -/

theorem perm_eraseP {α : Type} (f : α → Bool) (xs : List α) :
    ((xs.filter f).take 1 ++ xs.eraseP f).Perm xs := by
  induction xs with
  | nil => rfl
  | cons x xs ih =>
    by_cases hx : f x
    · rw [List.filter_cons_of_pos hx, List.eraseP_cons_of_pos hx]
      exact List.Perm.refl _
    · rw [List.filter_cons_of_neg hx, List.eraseP_cons_of_neg hx]
      exact List.perm_middle.trans (ih.cons x)

theorem Resource.sublist_removed (p : Principal) (all : Bool) (s : Snapshot) :
    (removed p all s).Sublist s.records := by
  cases all with
  | true => exact List.filter_sublist
  | false => exact (List.take_sublist 1 _).trans List.filter_sublist

namespace Call

/-- What a removal takes out and what it means to keep is what was there. -/
theorem perm_removed_append_kept (p : Principal) (all : Bool) (a : Answer) (rs : List Identity) :
    (Resource.removed p all { records := rs } ++ (removeIdentity p all).kept a rs).Perm rs := by
  cases all with
  | true => exact List.filter_append_perm _ rs
  | false => exact perm_eraseP _ rs

/-- The events that a call logs. -/
def logs (c : Call) (r : Resource) : List Event :=
  match c.effect r with
  | .ok e => e.2
  | .error _ => []

/-- What the log says of a call that has been answered, by what was held before it and after it. -/
def Tells (c : Call) (r r' : Resource) (a : Answer) (es : List Event) : Prop :=
  match c with
  | .addIdentity p username groups =>
    ∃ rs rs' record, r.identities = .ok rs ∧ r'.identities = .ok rs' ∧
      record = ⟨p.toText, username, groups⟩ ∧ a = .record record ∧ rs'.Perm (record :: rs) ∧
      es = [⟨.info, "identity_added",
        [("arn", .str record.arn), ("username", .str record.username)]⟩]
  | .removeIdentity p all =>
    ∃ rs rs' gone, r.identities = .ok rs ∧ r'.identities = .ok rs' ∧
      gone.Sublist rs ∧ (gone ++ rs').Perm rs ∧ (∀ x ∈ gone, x.arn = p.toText) ∧
      (all = true → ∀ x ∈ rs', x.arn ≠ p.toText) ∧ a = .count gone.length ∧
      es = gone.map fun x => ⟨.info, "identity_removed",
        [("arn", .str x.arn), ("username", .str x.username), ("groups", Json.texts x.groups)]⟩
  | .addAccount account => es = [⟨.info, "account_added", [("account", .str account)]⟩]
  | .removeAccount account => es = [⟨.info, "account_removed", [("account", .str account)]⟩]
  | _ => es = []

section OneCall

variable {c : Call} {r r' : Resource} {rs : List Identity} {a : Answer} {σ σ' : Session}
  {e : (Answer × Data) × List Event}

theorem logs_of_effect (h : c.effect r = .ok e) : c.logs r = e.2 := by rw [logs, h]

theorem logs_of_error {t : Trouble} (h : c.effect r = .error t) : c.logs r = [] := by rw [logs, h]

theorem perform_eq_logs (c : Call) (r : Resource) (σ : Session) :
    (∃ t, c.effect r = .error t ∧ c.perform r σ = .error t σ) ∨
      ∃ e, c.effect r = .ok e ∧ c.perform r σ = .ok (e.1.1, c.next r) (σ.logged (c.logs r)) := by
  rw [perform_eq_told]
  cases h : c.effect r with
  | error t => exact Or.inl ⟨t, rfl, rfl⟩
  | ok e =>
    rw [next_of_effect h, logs_of_effect h]
    exact Or.inr ⟨e, rfl, rfl⟩

theorem tells_of_effect (h : c.effect r = .ok e) : c.Tells r (c.next r) e.1.1 e.2 := by
  cases c with
  | addIdentity p username groups =>
    obtain ⟨rs, rs', hrs, hrs', hpartition⟩ := isStablePartition_next rfl h
    simp only [effect, Except.bind_eq_ok, StoreError.lift_eq_ok] at h
    obtain ⟨record, hrecord, held, -, s, -, h⟩ := h
    cases h
    obtain ⟨-, rfl⟩ := newIdentity_eq_ok.mp hrecord
    refine ⟨rs, rs', _, hrs, hrs', rfl, rfl, hpartition.perm.trans ?_, rfl⟩
    exact List.perm_append_singleton _ rs
  | removeIdentity p all =>
    obtain ⟨rs, rs', hrs, hrs', hpartition⟩ := isStablePartition_next rfl h
    simp only [effect, Except.bind_eq_ok, StoreError.lift_eq_ok] at h
    obtain ⟨held, hheld, s, hs, h⟩ := h
    cases h
    obtain rfl : held.records = rs :=
      Except.ok.inj ((Resource.identities_of_identitySnapshot hheld).symm.trans hrs)
    refine ⟨held.records, rs', Resource.removed p all held, hrs, hrs',
      Resource.sublist_removed p all held, ?_, ?_, ?_, rfl, rfl⟩
    · exact (hpartition.perm.append_left _).trans (perm_removed_append_kept p all _ _)
    · intro x hx
      have hget : x ∈ held.get p := by
        cases all with
        | true => exact hx
        | false => exact List.mem_of_mem_take hx
      exact Identity.isFor_iff.mp (List.mem_filter.mp hget).2
    · rintro rfl x hx harn
      have hkept := (List.mem_filter.mp (hpartition.perm.mem_iff.mp hx)).2
      simp [Identity.isFor_iff.mpr harn] at hkept
  | addAccount account =>
    simp only [effect, Except.bind_eq_ok] at h
    obtain ⟨held, -, h⟩ := h
    cases h
    rfl
  | removeAccount account =>
    simp only [effect, Except.bind_eq_ok] at h
    obtain ⟨held, -, s, -, h⟩ := h
    cases h
    rfl
  | identities | get | find | accounts =>
    simp only [effect, Except.bind_eq_ok] at h
    obtain ⟨answer, -, h⟩ := h
    cases h
    rfl

theorem Tells.level {es : List Event} (h : c.Tells r r' a es) : ∀ e ∈ es, e.level = .info := by
  cases c with
  | addIdentity p username groups =>
    obtain ⟨rs, rs', record, -, -, -, -, -, rfl⟩ := h
    simp
  | removeIdentity p all =>
    obtain ⟨rs, rs', gone, -, -, -, -, -, -, -, rfl⟩ := h
    simp
  | addAccount account | removeAccount account | identities | get | find | accounts =>
    have hes : es = _ := h
    simp [hes]

theorem Tells.not_tellsOfIdentity {es : List Event} (h : c.Tells r r' a es)
    (hc : ¬ c.editsIdentities) : ∀ e ∈ es, e.tellsOfIdentity = false := by
  cases c with
  | addIdentity | removeIdentity => exact absurd rfl hc
  | addAccount account | removeAccount account | identities | get | find | accounts =>
    have hes : es = _ := h
    simp [hes, Event.tellsOfIdentity]

/-- The events of an edit lead from the records before it to those after it. -/
theorem Tells.replay {es : List Event} (h : c.Tells r r' a es) (hc : c.editsIdentities) :
    ∃ rs rs', r.identities = .ok rs ∧ r'.identities = .ok rs' ∧
      es.foldlM Event.replay? (mappings rs) = some (mappings rs') := by
  cases c with
  | addIdentity p username groups =>
    obtain ⟨rs, rs', record, hrs, hrs', -, -, hperm, rfl⟩ := h
    refine ⟨rs, rs', hrs, hrs', ?_⟩
    rw [mappings_congr hperm, mappings_cons]
    rfl
  | removeIdentity p all =>
    obtain ⟨rs, rs', gone, hrs, hrs', -, hperm, -, -, -, rfl⟩ := h
    refine ⟨rs, rs', hrs, hrs', ?_⟩
    rw [← mappings_congr hperm]
    exact replay_removed gone rs'
  | addAccount | removeAccount | identities | get | find | accounts =>
    exact absurd hc Bool.false_ne_true

theorem level_of_mem_logs : ∀ e ∈ c.logs r, e.level = .info := by
  cases h : c.effect r with
  | error t => simp [logs_of_error h]
  | ok e =>
    rw [logs_of_effect h]
    exact (tells_of_effect h).level

theorem not_tellsOfIdentity_of_mem_logs (hc : ¬ c.editsIdentities) :
    ∀ e ∈ c.logs r, e.tellsOfIdentity = false := by
  cases h : c.effect r with
  | error t => simp [logs_of_error h]
  | ok e =>
    rw [logs_of_effect h]
    exact (tells_of_effect h).not_tellsOfIdentity hc

theorem replay_logs (hrs : r.identities = .ok rs) (c : Call) :
    ∃ rs', (c.next r).identities = .ok rs' ∧
      (c.logs r).foldlM Event.replay? (mappings rs) = some (mappings rs') := by
  by_cases hc : c.editsIdentities
  · cases h : c.effect r with
    | error t =>
      rw [next_of_error h, logs_of_error h]
      exact ⟨rs, hrs, rfl⟩
    | ok e =>
      obtain ⟨rs₁, rs', hrs₁, hrs', hreplay⟩ := (tells_of_effect h).replay hc
      obtain rfl : rs₁ = rs := Except.ok.inj (hrs₁.symm.trans hrs)
      rw [logs_of_effect h]
      exact ⟨rs', hrs', hreplay⟩
  · refine ⟨rs, (Resource.identities_congr (texts_next_of_no_edit hc)).trans hrs, ?_⟩
    exact replay_of_not_tellsOfIdentity (not_tellsOfIdentity_of_mem_logs hc) _

/-- As long as the identities cannot be read, nothing is logged about them. -/
theorem logs_of_unread {t : Trouble} (ht : r.identities = .error t) (c : Call) :
    (c.next r).identities = .error t ∧ ∀ e ∈ c.logs r, e.tellsOfIdentity = false := by
  by_cases hc : c.editsIdentities
  · cases h : c.effect r with
    | error t' =>
      rw [next_of_error h, logs_of_error h]
      exact ⟨ht, by simp⟩
    | ok e =>
      obtain ⟨rs, -, hrs, -⟩ := isStablePartition_next hc h
      rw [ht] at hrs
      cases hrs
  · refine ⟨(Resource.identities_congr (texts_next_of_no_edit hc)).trans ht, ?_⟩
    exact not_tellsOfIdentity_of_mem_logs hc

end OneCall

/-! ### Calls one after the other -/

/-- Makes calls one after the other, and gives what is held then, and the session. -/
def carryOut : List Call → Resource → Session → Resource × Session
  | [], r, σ => (r, σ)
  | c :: cs, r, σ =>
    match c.perform r σ with
    | .ok (_, r') σ' => carryOut cs r' σ'
    | .error _ σ' => carryOut cs r σ'

theorem carryOut_cons (c : Call) (cs : List Call) (r : Resource) (σ : Session) :
    carryOut (c :: cs) r σ = carryOut cs (c.next r) (σ.logged (c.logs r)) := by
  rcases c.perform_eq_logs r σ with ⟨t, heffect, h⟩ | ⟨e, -, h⟩
  · rw [carryOut, h, next_of_error heffect, logs_of_error heffect, Session.logged_nil]
  · rw [carryOut, h]

/-- The events of all calls, in their order. -/
def allLogs : List Call → Resource → List Event
  | [], _ => []
  | c :: cs, r => c.logs r ++ allLogs cs (c.next r)

theorem session_carryOut (cs : List Call) (r : Resource) (σ : Session) :
    (carryOut cs r σ).2 = σ.logged (allLogs cs r) := by
  induction cs generalizing r σ with
  | nil => exact σ.logged_nil.symm
  | cons c cs ih => rw [carryOut_cons, ih, Session.logged_logged, allLogs]

theorem level_of_mem_allLogs (cs : List Call) (r : Resource) :
    ∀ e ∈ allLogs cs r, e.level = .info := by
  induction cs generalizing r with
  | nil => simp [allLogs]
  | cons c cs ih =>
    rw [allLogs, List.forall_mem_append]
    exact ⟨level_of_mem_logs, ih (c.next r)⟩

theorem replay_allLogs {r : Resource} {rs : List Identity} (hrs : r.identities = .ok rs)
    (cs : List Call) (σ : Session) : ∃ rs', (carryOut cs r σ).1.identities = .ok rs' ∧
      (allLogs cs r).foldlM Event.replay? (mappings rs) = some (mappings rs') := by
  induction cs generalizing r rs σ with
  | nil => exact ⟨rs, hrs, rfl⟩
  | cons c cs ih =>
    obtain ⟨rs₁, hrs₁, hhead⟩ := replay_logs hrs c
    obtain ⟨rs', hrs', htail⟩ := ih hrs₁ (σ.logged (c.logs r))
    refine ⟨rs', by rwa [carryOut_cons], ?_⟩
    rw [allLogs, List.foldlM_append, hhead]
    exact htail

theorem allLogs_of_unread {r : Resource} {t : Trouble} (ht : r.identities = .error t)
    (cs : List Call) (σ : Session) : (carryOut cs r σ).1.identities = .error t ∧
      ∀ e ∈ allLogs cs r, e.tellsOfIdentity = false := by
  induction cs generalizing r σ with
  | nil => exact ⟨ht, by simp [allLogs]⟩
  | cons c cs ih =>
    obtain ⟨hnext, hhead⟩ := logs_of_unread ht c
    obtain ⟨hheld, htail⟩ := ih hnext (σ.logged (c.logs r))
    rw [carryOut_cons, allLogs, List.forall_mem_append]
    exact ⟨hheld, hhead, htail⟩

/-- A call that fails logs nothing. One that succeeds logs its changes and nothing else: the record
that has been added, each record that has gone, in the order in which they were stored and as many
as are counted, or the account. So at every level at which such events are shown, the log of a run
leads from the records at its start to those at its end, each as its name and user name; and where
the records cannot be read, nothing is logged about any. -/
theorem log_of_calls :
    (∀ (c : Call) r t σ σ', c.perform r σ = .error t σ' → σ' = σ) ∧
    (∀ (c : Call) r a r' σ σ', c.perform r σ = .ok (a, r') σ' →
      ∃ es, σ' = { σ with events := σ.events ++ es } ∧ c.Tells r r' a es) ∧
    ∀ (cs : List Call) (r : Resource) (σ : Session) (least : Level),
      least.rank ≤ Level.info.rank →
      ∃ es, (carryOut cs r σ).2.events = σ.events ++ es ∧
        (∀ rs, r.identities = .ok rs → ∃ rs', (carryOut cs r σ).1.identities = .ok rs' ∧
          (es.filter (·.isShown least)).foldlM Event.replay? (mappings rs) =
            some (mappings rs')) ∧
        ∀ t, r.identities = .error t → (carryOut cs r σ).1.identities = .error t ∧
          ∀ e ∈ es, e.name ≠ "identity_added" ∧ e.name ≠ "identity_removed" := by
  refine ⟨fun c r t σ σ' h => ?_, fun c r a r' σ σ' h => ?_, fun cs r σ least hleast => ?_⟩
  · rcases c.perform_eq_logs r σ with ⟨t', -, hperform⟩ | ⟨e, -, hperform⟩
    · rw [hperform] at h
      cases h
      rfl
    · rw [hperform] at h
      cases h
  · rcases c.perform_eq_logs r σ with ⟨t', -, hperform⟩ | ⟨e, heffect, hperform⟩
    · rw [hperform] at h
      cases h
    · rw [hperform] at h
      cases h
      rw [logs_of_effect heffect]
      exact ⟨e.2, rfl, tells_of_effect heffect⟩
  · have hshown : (allLogs cs r).filter (·.isShown least) = allLogs cs r := by
      apply List.filter_eq_self.mpr
      intro e he
      rw [Event.isShown, level_of_mem_allLogs cs r e he]
      exact decide_eq_true hleast
    refine ⟨allLogs cs r, by rw [session_carryOut, Session.logged], ?_, fun t ht => ?_⟩
    · rw [hshown]
      exact fun rs hrs => replay_allLogs hrs cs σ
    · obtain ⟨hheld, hnone⟩ := allLogs_of_unread ht cs σ
      refine ⟨hheld, fun e he => ?_⟩
      simpa [Event.tellsOfIdentity] using hnone e he

/-- One user has two records, one of them filed among the roles. A removal finds nobody, another
finds both records, and a role is added. -/
theorem log_of_calls_duplicates :
    let ann (username : Text) : Identity := ⟨"arn:aws:iam::1:user/ann", username, []⟩
    let role : Identity := ⟨"arn:aws:iam::1:role/ops", "ops", ["system:masters"]⟩
    let r : Resource := { data := identityTexts [ann "a"] [ann "b"] }
    let cs := [removeIdentity (.text "bob") false, removeIdentity (.text (ann "a").arn) true,
      addIdentity (.text role.arn) role.username role.groups]
    let events := (carryOut cs r {}).2.events
    r.identities = .ok [ann "a", ann "b"] ∧
      events.map Event.name = ["identity_removed", "identity_removed", "identity_added"] ∧
      events.map Event.mapping? =
        [some ((ann "a").arn, (ann "a").username), some ((ann "b").arn, (ann "b").username),
          some (role.arn, role.username)] ∧
      ∃ rs', (carryOut cs r {}).1.identities = .ok rs' ∧
        (events.filter (·.isShown .info)).foldlM Event.replay? (mappings [ann "a", ann "b"]) =
          some (mappings rs') := by
  intro ann role r cs events
  have hrs : r.identities = .ok ([ann "a"] ++ [ann "b"]) := decodeRecords_of_texts rfl rfl
  obtain ⟨es, hes, hreplay, -⟩ := log_of_calls.2.2 cs r {} .info (Nat.le_refl _)
  have hevents : events = es := hes.trans (List.nil_append es)
  refine ⟨hrs, by decide +kernel, by decide +kernel, ?_⟩
  rw [hevents]
  exact hreplay _ hrs

end Call

end AuthMap
