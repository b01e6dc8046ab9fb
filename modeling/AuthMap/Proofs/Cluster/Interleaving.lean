import AuthMap.Proofs.Cluster.Requests
import AuthMap.Proofs.Store.Refinement
import Mathlib.Logic.Function.Basic

/-! Any number of stores beside one cluster, whose steps come in any order. What the cluster holds
is what the accepted saves have made of it, one after the other. -/

namespace AuthMap

/-- A store between its fetch and a save. -/
structure Holder where
  gateway : Gateway
  held : Resource
  /-- The calls since the last fetch or accepted save, whichever was later. -/
  pending : List Call
  /-- How many saves of all stores had been accepted by then. -/
  base : Nat

structure World where
  session : Session
  stores : Nat → Option Holder := fun _ => none
  /-- The calls that the accepted saves have brought in, a list for each save in their order. -/
  accepted : List (List Call) := []

inductive Step where
  | fetch (i : Nat) (g : Gateway)
  | call (i : Nat) (c : Call)
  | save (i : Nat)

namespace World

/-- A store is made by a fetch; if the fetch fails there is none. -/
def fetch (i : Nat) (g : Gateway) (w : World) : World :=
  match g.fetch w.session with
  | .ok r σ =>
    let h : Holder := { gateway := g, held := r, pending := [], base := w.accepted.length }
    { w with session := σ, stores := Function.update w.stores i (some h) }
  | .error _ σ => { w with session := σ }

/-- A call on what a store holds. A call that fails leaves it as it was. -/
def call (i : Nat) (c : Call) (w : World) : World :=
  match w.stores i with
  | none => w
  | some h =>
    let h := { h with pending := h.pending ++ [c] }
    match c.perform h.held w.session with
    | .ok (_, r) σ =>
      { w with session := σ, stores := Function.update w.stores i (some { h with held := r }) }
    | .error _ σ => { w with session := σ, stores := Function.update w.stores i (some h) }

/-- A save of what a store holds. From a save that is accepted it goes on with what was saved. -/
def save (i : Nat) (w : World) : World :=
  match w.stores i with
  | none => w
  | some h =>
    match h.gateway.save h.held w.session with
    | .ok r σ =>
      let accepted := w.accepted ++ [h.pending]
      let h : Holder := { h with held := r, pending := [], base := accepted.length }
      { session := σ, stores := Function.update w.stores i (some h), accepted }
    | .error _ σ => { w with session := σ }

def step (w : World) : Step → World
  | .fetch i g => w.fetch i g
  | .call i c => w.call i c
  | .save i => w.save i

def run (steps : List Step) (w : World) : World := steps.foldl step w

end World

/-- The step goes to one object, by way of a gateway that can make requests. -/
def Step.Addresses (ns name : String) : Step → Prop
  | .fetch _ g => g.api = true ∧ g.config.ns = ns ∧ g.config.name = name
  | _ => True

def Step.Makes (i : Nat) : Step → Prop
  | .fetch j _ => j = i
  | _ => False

/-- The snapshot after a call; a call that fails changes nothing. -/
def Snapshot.after (s : Snapshot) (c : Call) : Snapshot :=
  match c.apply s with
  | .ok (_, s') => s'
  | .error _ => s

def Snapshot.replay (s : Snapshot) (cs : List Call) : Snapshot := cs.foldl Snapshot.after s

namespace Cluster

/-- The snapshot of what was read from an object, which is empty if there is none. -/
def shown : Option Resource → Except Trouble Snapshot
  | none => .ok {}
  | some r => r.snapshot

/-- The snapshot that the cluster holds under a name. -/
def snapshot (ns name : String) (c : Cluster) : Except Trouble Snapshot :=
  match c.object? ns name with
  | none => .ok {}
  | some m => do (← Resource.ofConfigMap m).snapshot

theorem snapshot_of_holds {ns name : String} {c : Cluster} {stored : Option Resource}
    (h : c.Holds ns name stored) : c.snapshot ns name = shown stored := by
  cases stored with
  | none =>
    have hobject : c.object? ns name = none := h
    simp only [snapshot, hobject, shown]
  | some r =>
    obtain ⟨m, hobject, hm, -⟩ := h
    simp only [snapshot, hobject, hm, shown]
    rfl

end Cluster

/-! ### The invariant -/

/-- What a store holds is what its calls have made of the content at its base, and it is at the
version of the cluster as long as no other save has been accepted. -/
structure Holder.Linked (ns name : String) (s₀ : Snapshot) (accepted : List (List Call))
    (next : Nat) (stored : Option Resource) (h : Holder) : Prop where
  api : h.gateway.api = true
  name : h.held.name = name
  ns : h.held.ns = ns
  base_le : h.base ≤ accepted.length
  shown : h.held.snapshot =
    .ok (s₀.replay ((accepted.take h.base).flatten ++ h.pending))
  past : h.held.exists? = true → ∀ n, next ≤ n → h.held.version ≠ some (toString n)
  current : Cluster.Current h.held stored ↔ h.base = accepted.length

structure World.Linked (ns name : String) (s₀ : Snapshot) (stored : Option Resource) (w : World) :
    Prop where
  failures : w.session.failures = []
  holds : w.session.cluster.Holds ns name stored
  absent : stored = none → w.accepted = []
  shown : Cluster.shown stored = .ok (s₀.replay w.accepted.flatten)
  store : ∀ i h, w.stores i = some h →
    h.Linked ns name s₀ w.accepted w.session.cluster.nextVersion stored

/-! ### What one step does -/

namespace World

variable {ns name : String} {s₀ : Snapshot} {stored : Option Resource} {w : World} {i : Nat}
  {h : Holder}

theorem fetch_of_ok {g : Gateway} {r : Resource} {σ : Session}
    (hfetch : g.fetch w.session = .ok r σ) :
    w.fetch i g = { w with
      session := σ
      stores := Function.update w.stores i
        (some { gateway := g, held := r, pending := [], base := w.accepted.length }) } := by
  simp only [fetch, hfetch]

theorem fetch_eq (hw : w.Linked ns name s₀ stored) {g : Gateway}
    (hg : (Step.fetch i g).Addresses ns name) :
    ∃ σ, w.session.GoesOn w.session.cluster σ ∧ w.fetch i g = { w with
      session := σ
      stores := Function.update w.stores i
        (some {
          gateway := g
          held := stored.getD g.blank
          pending := []
          base := w.accepted.length }) } := by
  obtain ⟨hapi, hns, hname⟩ := hg
  obtain ⟨σ, hfetch, hσ⟩ := Gateway.fetch_of_offers hapi hw.failures hns hname hw.holds.offers
  exact ⟨σ, hσ, fetch_of_ok hfetch⟩

theorem call_of_none (hi : w.stores i = none) (c : Call) : w.call i c = w := by
  simp only [call, hi]

theorem call_eq (hw : w.Linked ns name s₀ stored) (hi : w.stores i = some h) (c : Call) :
    ∃ data es, w.call i c = { w with
        session := w.session.logged es
        stores := Function.update w.stores i
          (some { h with held := { h.held with data }, pending := h.pending ++ [c] }) } ∧
      Resource.snapshot { h.held with data } =
        .ok (s₀.replay ((w.accepted.take h.base).flatten ++ (h.pending ++ [c]))) := by
  have hshown := (hw.store i h hi).shown
  -- the call does to the held texts what it does to the snapshot in them
  have hstep := Call.refines_of_snapshot hshown c
  have hreplay : s₀.replay ((w.accepted.take h.base).flatten ++ (h.pending ++ [c])) =
      (s₀.replay ((w.accepted.take h.base).flatten ++ h.pending)).after c := by
    rw [← List.append_assoc, Snapshot.replay, List.foldl_append]
    rfl
  rw [hreplay]
  rw [Call.Refines] at hstep
  rw [Snapshot.after]
  cases happly : c.apply (s₀.replay ((w.accepted.take h.base).flatten ++ h.pending)) with
  | ok answered =>
    rw [happly] at hstep
    obtain ⟨data, es, hperform, hsnapshot⟩ := hstep
    refine ⟨data, es, ?_, hsnapshot⟩
    simp only [call, hi, hperform, Work.told]
  | error e =>
    rw [happly] at hstep
    refine ⟨h.held.data, [], ?_, hshown⟩
    simp only [call, hi, hstep, Work.told, Session.logged_nil]

theorem save_of_none (hi : w.stores i = none) : w.save i = w := by simp only [save, hi]

theorem save_of_ok {r : Resource} {σ : Session} (hi : w.stores i = some h)
    (hsave : h.gateway.save h.held w.session = .ok r σ) :
    w.save i =
      { session := σ
        stores := Function.update w.stores i
          (some { h with held := r, pending := [], base := (w.accepted ++ [h.pending]).length })
        accepted := w.accepted ++ [h.pending] } := by
  simp only [save, hi, hsave]

theorem save_of_current (hw : w.Linked ns name s₀ stored) (hi : w.stores i = some h)
    (hbase : h.base = w.accepted.length) :
    ∃ u σ, h.gateway.save h.held w.session = .ok (w.session.cluster.written h.held u) σ ∧
      σ.cluster.Holds ns name (some (w.session.cluster.written h.held u)) ∧
      σ.cluster.nextVersion = w.session.cluster.nextVersion + 1 ∧ σ.failures = [] ∧
      w.save i =
        { session := σ
          stores := Function.update w.stores i
            (some { h with
              held := w.session.cluster.written h.held u
              pending := []
              base := (w.accepted ++ [h.pending]).length })
          accepted := w.accepted ++ [h.pending] } := by
  have hh := hw.store i h hi
  obtain ⟨u, σ, hsave, hholds, hnext, hfailures⟩ := Gateway.save_of_current hh.api hw.failures
    (hh.name ▸ hh.ns ▸ hw.holds.offers) (hh.current.mpr hbase)
  refine ⟨u, σ, hsave, ?_, hnext, hfailures, save_of_ok hi hsave⟩
  rw [hh.name, hh.ns] at hholds
  exact hholds

theorem save_of_stale (hw : w.Linked ns name s₀ stored) (hi : w.stores i = some h)
    (hbase : h.base < w.accepted.length) :
    ∃ f σ, h.gateway.save h.held w.session = .error (.store (.persistence f)) σ ∧
      f.status = some 409 ∧ w.session.GoesOn w.session.cluster σ ∧
      w.save i = { w with session := σ } := by
  have hh := hw.store i h hi
  have hstale : ¬ Cluster.Current h.held stored := fun hc =>
    Nat.ne_of_lt hbase (hh.current.mp hc)
  cases stored with
  | none =>
    rw [hw.absent rfl] at hbase
    cases hbase
  | some r =>
    obtain ⟨f, σ, hsave, hstatus, hσ⟩ := Gateway.save_of_stale hh.api hw.failures
      (hh.name ▸ hh.ns ▸ hw.holds.offers) hstale
    refine ⟨f, σ, hsave, hstatus, hσ, ?_⟩
    simp only [save, hi, hsave]

/-! ### Every step keeps the invariant -/

theorem eq_or_of_update {stores : Nat → Option Holder} {j : Nat} {h' : Holder}
    (hj : Function.update stores i (some h) j = some h') :
    j = i ∧ h' = h ∨ j ≠ i ∧ stores j = some h' := by
  by_cases hji : j = i
  · subst hji
    rw [Function.update_self] at hj
    exact Or.inl ⟨rfl, (Option.some.inj hj).symm⟩
  · rw [Function.update_of_ne hji] at hj
    exact Or.inr ⟨hji, hj⟩

/-- Anything that leaves the cluster alone may change one store. -/
theorem Linked.update (hw : w.Linked ns name s₀ stored) {σ : Session}
    (hσ : w.session.GoesOn w.session.cluster σ)
    (hh : h.Linked ns name s₀ w.accepted w.session.cluster.nextVersion stored) :
    Linked ns name s₀ stored
      { w with session := σ, stores := Function.update w.stores i (some h) } := by
  obtain ⟨hcluster, hfailures⟩ := hσ
  refine ⟨hfailures.trans hw.failures, ?_, hw.absent, hw.shown, ?_⟩
  · simpa only [hcluster] using hw.holds
  · intro j h' hj
    simp only [hcluster]
    rcases eq_or_of_update hj with ⟨-, rfl⟩ | ⟨-, hj⟩
    · exact hh
    · exact hw.store j h' hj

theorem linked_fetch (hw : w.Linked ns name s₀ stored) {g : Gateway}
    (hg : (Step.fetch i g).Addresses ns name) : (w.fetch i g).Linked ns name s₀ stored := by
  obtain ⟨σ, hσ, heq⟩ := fetch_eq hw hg
  rw [heq]
  refine hw.update hσ ?_
  obtain ⟨hapi, hns, hname⟩ := hg
  have hshown : Resource.snapshot (stored.getD g.blank) = Cluster.shown stored := by
    cases stored <;> rfl
  have htake : (w.accepted.take w.accepted.length).flatten ++ [] = w.accepted.flatten := by
    rw [List.take_length, List.append_nil]
  constructor
  case api => exact hapi
  case base_le => exact Nat.le_refl _
  case shown => rw [htake, hshown, hw.shown]
  all_goals cases stored
  case name.none => exact hname
  case ns.none => exact hns
  case past.none => exact fun hblank => by cases hblank
  case current.none => exact ⟨fun _ => rfl, fun _ => rfl⟩
  case name.some r =>
    obtain ⟨m, -, -, hr, -⟩ := hw.holds
    exact hr
  case ns.some r =>
    obtain ⟨m, -, -, -, hr, -⟩ := hw.holds
    exact hr
  case past.some r =>
    obtain ⟨m, -, -, -, -, -, hr⟩ := hw.holds
    exact fun _ => hr
  case current.some r =>
    obtain ⟨m, -, -, -, -, hr, -⟩ := hw.holds
    exact ⟨fun _ => rfl, fun _ => ⟨hr, rfl⟩⟩

theorem linked_call (hw : w.Linked ns name s₀ stored) (i : Nat) (c : Call) :
    (w.call i c).Linked ns name s₀ stored := by
  cases hi : w.stores i with
  | none =>
    rw [call_of_none hi]
    exact hw
  | some h =>
    obtain ⟨data, es, heq, hsnapshot⟩ := call_eq hw hi c
    have hh := hw.store i h hi
    rw [heq]
    refine hw.update (Session.GoesOn.logged _ es) ?_
    exact ⟨hh.api, hh.name, hh.ns, hh.base_le, hsnapshot, hh.past, hh.current⟩

/-- After an accepted save the other stores are no longer at the version of the cluster. -/
theorem linked_save_of_current (hw : w.Linked ns name s₀ stored) (hi : w.stores i = some h)
    (hbase : h.base = w.accepted.length) : ∃ stored', (w.save i).Linked ns name s₀ stored' := by
  obtain ⟨u, σ, -, hholds, hnext, hfailures, heq⟩ := save_of_current hw hi hbase
  have hh := hw.store i h hi
  -- the base is the latest, so the pending calls come right behind those accepted before
  have hshown : (w.session.cluster.written h.held u).snapshot =
      .ok (s₀.replay (w.accepted ++ [h.pending]).flatten) := by
    have hheld := hh.shown
    rw [hbase, List.take_length] at hheld
    rw [List.flatten_append, List.flatten_singleton]
    exact hheld
  have hlength : (w.accepted ++ [h.pending]).length = w.accepted.length + 1 := by simp
  refine ⟨some (w.session.cluster.written h.held u), ?_⟩
  rw [heq]
  refine ⟨hfailures, hholds, nofun, hshown, ?_⟩
  intro j h' hj
  rw [hnext]
  rcases eq_or_of_update hj with ⟨-, rfl⟩ | ⟨-, hj⟩
  · obtain ⟨m, -, -, hname, hns, hexists, hpast⟩ := hholds
    rw [hnext] at hpast
    refine ⟨hh.api, hname, hns, Nat.le_refl _, ?_, fun _ => hpast, ?_⟩
    · rw [List.take_length, List.append_nil]
      exact hshown
    · exact ⟨fun _ => rfl, fun _ => ⟨hexists, rfl⟩⟩
  · have hh' := hw.store j h' hj
    have hle := hh'.base_le
    refine ⟨hh'.api, hh'.name, hh'.ns, ?_, ?_, ?_, ?_⟩
    · rw [hlength]
      exact Nat.le_succ_of_le hle
    · rw [List.take_append_of_le_length hle]
      exact hh'.shown
    · exact fun hexists n hn => hh'.past hexists n (Nat.le_of_succ_le hn)
    · -- the version just given is none that was given before
      refine ⟨fun hc => absurd hc.2 (hh'.past hc.1 _ (Nat.le_refl _)), fun hb => ?_⟩
      rw [hlength] at hb
      omega

theorem linked_save (hw : w.Linked ns name s₀ stored) (i : Nat) :
    ∃ stored', (w.save i).Linked ns name s₀ stored' := by
  cases hi : w.stores i with
  | none =>
    rw [save_of_none hi]
    exact ⟨stored, hw⟩
  | some h =>
    rcases Nat.eq_or_lt_of_le (hw.store i h hi).base_le with hbase | hbase
    · exact linked_save_of_current hw hi hbase
    · obtain ⟨f, σ, -, -, ⟨hcluster, hfailures⟩, heq⟩ := save_of_stale hw hi hbase
      rw [heq]
      refine ⟨stored, hfailures.trans hw.failures, ?_, hw.absent, hw.shown, ?_⟩
      · simpa only [hcluster] using hw.holds
      · simpa only [hcluster] using hw.store

theorem linked_step (hw : w.Linked ns name s₀ stored) {x : Step} (hx : x.Addresses ns name) :
    ∃ stored', (w.step x).Linked ns name s₀ stored' := by
  cases x with
  | fetch i g => exact ⟨stored, linked_fetch hw hx⟩
  | call i c => exact ⟨stored, linked_call hw i c⟩
  | save i => exact linked_save hw i

theorem linked_run (hw : w.Linked ns name s₀ stored) {steps : List Step}
    (hsteps : ∀ x ∈ steps, x.Addresses ns name) :
    ∃ stored', (w.run steps).Linked ns name s₀ stored' := by
  induction steps generalizing w stored with
  | nil => exact ⟨stored, hw⟩
  | cons x steps ih =>
    obtain ⟨stored₁, hw₁⟩ := linked_step hw (hsteps x List.mem_cons_self)
    exact ih hw₁ fun y hy => hsteps y (List.mem_cons_of_mem _ hy)

/-! ### A store that is left behind -/

/-- Another save has been accepted since the store was made or has had a save accepted. -/
def Behind (i : Nat) (w : World) : Prop :=
  ∃ h, w.stores i = some h ∧ h.base < w.accepted.length

theorem behind_step (hw : w.Linked ns name s₀ stored) (hi : w.Behind i) {x : Step}
    (hx : x.Addresses ns name) (hmake : ¬ x.Makes i) : (w.step x).Behind i := by
  -- its own saves are refused, so its base stays where it was
  obtain ⟨h, hi, hbase⟩ := hi
  cases x with
  | fetch j g =>
    obtain ⟨σ, -, heq⟩ := fetch_eq hw hx
    have hij : i ≠ j := fun hij => hmake hij.symm
    rw [step, heq]
    exact ⟨h, (Function.update_of_ne hij _ _).trans hi, hbase⟩
  | call j c =>
    cases hj : w.stores j with
    | none =>
      rw [step, call_of_none hj]
      exact ⟨h, hi, hbase⟩
    | some h' =>
      obtain ⟨data, es, heq, -⟩ := call_eq hw hj c
      rw [step, heq]
      by_cases hij : i = j
      · subst hij
        obtain rfl : h = h' := Option.some.inj (hi.symm.trans hj)
        exact ⟨_, Function.update_self i _ _, hbase⟩
      · exact ⟨h, (Function.update_of_ne hij _ _).trans hi, hbase⟩
  | save j =>
    cases hj : w.stores j with
    | none =>
      rw [step, save_of_none hj]
      exact ⟨h, hi, hbase⟩
    | some h' =>
      rcases Nat.eq_or_lt_of_le (hw.store j h' hj).base_le with hcurrent | hstale
      · obtain ⟨u, σ, -, -, -, -, heq⟩ := save_of_current hw hj hcurrent
        have hij : i ≠ j := by
          rintro rfl
          obtain rfl : h = h' := Option.some.inj (hi.symm.trans hj)
          omega
        rw [step, heq]
        refine ⟨h, (Function.update_of_ne hij _ _).trans hi, ?_⟩
        exact Nat.lt_of_lt_of_le hbase (by simp)
      · obtain ⟨f, σ, -, -, -, heq⟩ := save_of_stale hw hj hstale
        rw [step, heq]
        exact ⟨h, hi, hbase⟩

theorem behind_run (hw : w.Linked ns name s₀ stored) (hi : w.Behind i) {steps : List Step}
    (hsteps : ∀ x ∈ steps, x.Addresses ns name ∧ ¬ x.Makes i) : (w.run steps).Behind i := by
  induction steps generalizing w stored with
  | nil => exact hi
  | cons x steps ih =>
    obtain ⟨hx, hmake⟩ := hsteps x List.mem_cons_self
    obtain ⟨stored₁, hw₁⟩ := linked_step hw hx
    exact ih hw₁ (behind_step hw hi hx hmake) fun y hy => hsteps y (List.mem_cons_of_mem _ hy)

def Accepts (i : Nat) (w : World) : Prop :=
  ∃ h r σ, w.stores i = some h ∧ h.gateway.save h.held w.session = .ok r σ

/-- A save of the store is refused as a conflict, and the cluster and what the store holds stay as
they are. -/
def Refuses (i : Nat) (w : World) : Prop :=
  ∃ h f σ, w.stores i = some h ∧
    h.gateway.save h.held w.session = .error (.store (.persistence f)) σ ∧ f.status = some 409 ∧
    (w.save i).session.cluster = w.session.cluster ∧ (w.save i).stores = w.stores

theorem refuses_of_behind (hw : w.Linked ns name s₀ stored) (hi : w.Behind i) : w.Refuses i := by
  obtain ⟨h, hi, hbase⟩ := hi
  obtain ⟨f, σ, hsave, hstatus, ⟨hcluster, -⟩, heq⟩ := save_of_stale hw hi hbase
  exact ⟨h, f, σ, hi, hsave, hstatus, by rw [heq]; exact hcluster, by rw [heq]⟩

theorem linked_start {σ : Session} (hf : σ.failures = []) (hc : σ.cluster.Holds ns name stored)
    (hs : Cluster.shown stored = .ok s₀) : Linked ns name s₀ stored { session := σ } :=
  ⟨hf, hc, fun _ => rfl, hs, nofun⟩

/-- No update is lost. Whatever the order of the steps, the cluster holds what the calls of the
accepted saves make of the content at the start. A store's save is accepted as long as no other has
been since its base, and is refused from then on. -/
theorem snapshot_run_eq_replay {σ : Session} (hf : σ.failures = [])
    (hc : σ.cluster.Holds ns name stored) (hs : Cluster.shown stored = .ok s₀)
    {steps : List Step} (hsteps : ∀ x ∈ steps, x.Addresses ns name) :
    let w := run steps { session := σ }
    w.session.cluster.snapshot ns name = .ok (s₀.replay w.accepted.flatten) ∧
      ∀ i h, w.stores i = some h →
        h.base = w.accepted.length ∧ w.Accepts i ∨
        h.base < w.accepted.length ∧ ∀ later : List Step,
          (∀ x ∈ later, x.Addresses ns name ∧ ¬ x.Makes i) → (w.run later).Refuses i := by
  intro w
  obtain ⟨stored', hw⟩ := linked_run (linked_start hf hc hs) hsteps
  refine ⟨(Cluster.snapshot_of_holds hw.holds).trans hw.shown, fun i h hi => ?_⟩
  rcases Nat.eq_or_lt_of_le (hw.store i h hi).base_le with hcurrent | hstale
  · obtain ⟨u, σ', hsave, -⟩ := save_of_current hw hi hcurrent
    exact Or.inl ⟨hcurrent, h, _, σ', hi, hsave⟩
  · refine Or.inr ⟨hstale, fun later hlater => ?_⟩
    obtain ⟨stored'', hw'⟩ := linked_run hw fun x hx => (hlater x hx).1
    exact refuses_of_behind hw' (behind_run hw ⟨h, hi, hstale⟩ hlater)

/-- Two stores are made while there is no object. The save of one creates it; the other can save
no more, whatever it does. -/
theorem snapshot_run_eq_replay_race :
    let g : Gateway := { api := true }
    let w := run [.fetch 0 g, .fetch 1 g, .call 0 (.addAccount "1"), .call 1 (.addAccount "2"),
      .save 0, .save 1] { session := {} }
    w.session.cluster.snapshot objectNamespace objectName = .ok ⟨[], ["1"]⟩ ∧
      (w.run [.call 1 (.removeAccount "2")]).Refuses 1 := by
  intro g w
  have hsteps : ∀ x ∈ [Step.fetch 0 g, .fetch 1 g, .call 0 (.addAccount "1"),
      .call 1 (.addAccount "2"), .save 0, .save 1], x.Addresses objectNamespace objectName := by
    simp only [List.forall_mem_cons]
    exact ⟨⟨rfl, rfl, rfl⟩, ⟨rfl, rfl, rfl⟩, trivial, trivial, trivial, trivial, by simp⟩
  let σ : Session := {}
  have hfailures : σ.failures = [] := rfl
  have hempty : σ.cluster.Holds objectNamespace objectName none := rfl
  have hshown : Cluster.shown none = .ok {} := rfl
  obtain ⟨hsnapshot, hstores⟩ := snapshot_run_eq_replay hfailures hempty hshown hsteps
  have haccepted : w.accepted = [[.addAccount "1"]] := by decide +kernel
  have hbase : (w.stores 1).map Holder.base = some 0 := by decide +kernel
  obtain ⟨h, hi, hzero⟩ := Option.map_eq_some_iff.mp hbase
  refine ⟨hsnapshot.trans ?_, ?_⟩
  · rw [haccepted]
    rfl
  · rcases hstores 1 h hi with ⟨hcurrent, -⟩ | ⟨-, hlater⟩
    · rw [hzero, haccepted] at hcurrent
      cases hcurrent
    · refine hlater _ fun x hx => ?_
      obtain rfl := List.mem_singleton.mp hx
      exact ⟨trivial, id⟩

end World

end AuthMap
