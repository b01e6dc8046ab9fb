import AuthMap.Proofs.Cluster.Frame
import AuthMap.Proofs.Cluster.Interleaving
import AuthMap.Proofs.Store.Separation

/-! What no store owns stays, whatever steps any number of stores take and whichever of their
requests fail. An object that is there keeps its frame, and one that is created has the frame of an
empty object of the configuration. -/

namespace AuthMap

namespace Cluster

/-- What is kept under a name: nothing, or an object that shows a resource. -/
def Keeps (ns name : String) (c : Cluster) : Option Resource → Prop
  | none => c.object? ns name = none
  | some r => ∃ m, c.object? ns name = some m ∧ m.Shows r

variable {ns name : String} {c : Cluster} {stored : Option Resource}

theorem Keeps.eq_none (h : c.Keeps ns name stored) (hobject : c.object? ns name = none) :
    stored = none := by
  cases stored with
  | none => rfl
  | some r =>
    obtain ⟨m, hm, -⟩ := h
    rw [hobject] at hm
    cases hm

theorem Keeps.exists_eq_some (h : c.Keeps ns name stored) {m : ConfigMap}
    (hobject : c.object? ns name = some m) : ∃ r, stored = some r ∧ m.Shows r := by
  cases stored with
  | none =>
    have hnone : c.object? ns name = none := h
    rw [hobject] at hnone
    cases hnone
  | some r =>
    obtain ⟨m', hm', hshows⟩ := h
    obtain rfl := Option.some.inj (hobject.symm.trans hm')
    exact ⟨r, rfl, hshows⟩

end Cluster

/-- A store has the frame of an empty object of its configuration, or that of the object that is
kept under its name. -/
def Holder.Framed (ns name : String) (stored : Option Resource) (h : Holder) : Prop :=
  h.held.ns = ns → h.held.name = name →
    h.held.frame = h.gateway.blank ∨ ∃ r, stored = some r ∧ h.held.frame = r.frame

structure World.Framed (ns name : String) (stored : Option Resource) (w : World) : Prop where
  filed : w.session.cluster.Filed
  keeps : w.session.cluster.Keeps ns name stored
  store : ∀ i h, w.stores i = some h → h.Framed ns name stored

/-! ### What one step does -/

theorem Call.frame_next (c : Call) (r : Resource) : (c.next r).frame = r.frame := by
  obtain ⟨new, hnew, heq⟩ := exists_next_eq c r
  rw [heq, Resource.frame_withData hnew]

namespace World

variable {w w' : World} {i : Nat} {h : Holder} {m : ConfigMap}

/-- A store has written an object, which it holds from then on if it can be read. -/
structure Written (w : World) (h : Holder) (m : ConfigMap) (w' : World) : Prop where
  accepted : Gateway.Accepted h.held w.session.cluster m w'.session.cluster
  store : ∀ i h', w'.stores i = some h' →
    w.stores i = some h' ∨ h'.gateway = h.gateway ∧ Resource.ofConfigMap m = .ok h'.held

theorem fetch_cases (w : World) (i : Nat) (g : Gateway) :
    (w.fetch i g).session.cluster = w.session.cluster ∧
      ∀ j h', (w.fetch i g).stores j = some h' →
        h'.gateway.Fetches w.session.cluster h'.held ∨ w.stores j = some h' := by
  obtain ⟨x, σ, hfetch, hσ, hx⟩ := g.fetch_cases w.session
  unfold fetch
  rw [hfetch]
  cases x with
  | error t => exact ⟨hσ.cluster, fun j h' hj => Or.inr hj⟩
  | ok r =>
    refine ⟨hσ.cluster, fun j h' hj => ?_⟩
    rcases eq_or_of_update hj with ⟨-, rfl⟩ | ⟨-, hj⟩
    · exact Or.inl (hx r rfl)
    · exact Or.inr hj

theorem call_cases (w : World) (i : Nat) (c : Call) :
    (w.call i c).session.cluster = w.session.cluster ∧
      ∀ j h', (w.call i c).stores j = some h' →
        ∃ h, w.stores j = some h ∧ h'.gateway = h.gateway ∧
          (h'.held = h.held ∨ h'.held = c.next h.held) := by
  unfold call
  cases hi : w.stores i with
  | none => exact ⟨rfl, fun j h' hj => ⟨h', hj, rfl, Or.inl rfl⟩⟩
  | some h =>
    dsimp only
    rw [Call.perform_eq_told]
    cases heffect : c.effect h.held with
    | error t =>
      refine ⟨rfl, fun j h' hj => ?_⟩
      rcases eq_or_of_update hj with ⟨rfl, rfl⟩ | ⟨-, hj⟩
      · exact ⟨h, hi, rfl, Or.inl rfl⟩
      · exact ⟨h', hj, rfl, Or.inl rfl⟩
    | ok e =>
      refine ⟨rfl, fun j h' hj => ?_⟩
      rcases eq_or_of_update hj with ⟨rfl, rfl⟩ | ⟨-, hj⟩
      · exact ⟨h, hi, rfl, Or.inr (Call.next_of_effect heffect).symm⟩
      · exact ⟨h', hj, rfl, Or.inl rfl⟩

theorem save_cases (w : World) (i : Nat) :
    (w.save i).session.cluster = w.session.cluster ∧ (w.save i).stores = w.stores ∨
      ∃ h m, w.stores i = some h ∧ w.Written h m (w.save i) := by
  unfold save
  cases hi : w.stores i with
  | none => exact Or.inl ⟨rfl, rfl⟩
  | some h =>
    obtain ⟨x, σ, hsave, ⟨hwrote, t, rfl⟩ | ⟨m, -, haccepted, rfl⟩⟩ :=
      Gateway.save_cases h.gateway h.held w.session
    · dsimp only
      rw [hsave]
      exact Or.inl ⟨hwrote.1, rfl⟩
    · dsimp only
      rw [hsave]
      refine Or.inr ⟨h, m, rfl, ?_⟩
      cases hm : Resource.ofConfigMap m with
      | error t => exact ⟨haccepted, fun j h' hj => Or.inl hj⟩
      | ok r =>
        refine ⟨haccepted, fun j h' hj => ?_⟩
        rcases eq_or_of_update hj with ⟨rfl, rfl⟩ | ⟨-, hj⟩
        · exact Or.inr ⟨rfl, hm⟩
        · exact Or.inl hj

/-- A store has just been fetched, or it was there with the same frame. -/
def Came (w : World) (i : Nat) (h' : Holder) : Prop :=
  h'.gateway.Fetches w.session.cluster h'.held ∨
    ∃ h, w.stores i = some h ∧ h'.gateway = h.gateway ∧ h'.held.frame = h.held.frame

structure Calm (w w' : World) : Prop where
  cluster : w'.session.cluster = w.session.cluster
  store : ∀ i h', w'.stores i = some h' → w.Came i h'

theorem came_of_stores (hi : w.stores i = some h) : w.Came i h := Or.inr ⟨h, hi, rfl, rfl⟩

theorem calm_fetch (w : World) (i : Nat) (g : Gateway) : w.Calm (w.fetch i g) := by
  obtain ⟨hcluster, hstores⟩ := w.fetch_cases i g
  exact ⟨hcluster, fun j h' hj => (hstores j h' hj).imp id fun hj => ⟨h', hj, rfl, rfl⟩⟩

theorem calm_call (w : World) (i : Nat) (c : Call) : w.Calm (w.call i c) := by
  obtain ⟨hcluster, hstores⟩ := w.call_cases i c
  refine ⟨hcluster, fun j h' hj => ?_⟩
  obtain ⟨h, hh, hgateway, hheld | hheld⟩ := hstores j h' hj
  · exact Or.inr ⟨h, hh, hgateway, congrArg Resource.frame hheld⟩
  · exact Or.inr ⟨h, hh, hgateway, by rw [hheld, Call.frame_next]⟩

theorem save_calm_or_written (w : World) (i : Nat) :
    w.Calm (w.save i) ∨ ∃ h m, w.stores i = some h ∧ w.Written h m (w.save i) := by
  refine w.save_cases i |>.imp (fun ⟨hcluster, hstores⟩ => ⟨hcluster, fun j h' hj => ?_⟩) id
  rw [hstores] at hj
  exact came_of_stores hj

/-! ### Every step keeps the invariant -/

variable {ns name : String} {stored : Option Resource}

/-- What becomes of what is kept under a name: it keeps its frame, or a save creates it. -/
inductive Leads (w : World) (x : Step) : Option Resource → Option Resource → Prop
  | still (stored : Option Resource) : Leads w x stored stored
  | replaced {r r' : Resource} (hframe : r'.frame = r.frame) : Leads w x (some r) (some r')
  | created {i : Nat} {h : Holder} {u : String} {r' : Resource} (hx : x = .save i)
    (hi : w.stores i = some h) (hframe : r'.frame = { h.gateway.blank with uid := u }) :
    Leads w x none (some r')

theorem Framed.of_calm (hw : w.Framed ns name stored) (hc : w.Calm w') :
    w'.Framed ns name stored := by
  refine ⟨hc.cluster ▸ hw.filed, hc.cluster ▸ hw.keeps, fun i h' hi hns hname => ?_⟩
  rcases hc.store i h' hi with (hblank | ⟨m, hobject, hm⟩) | ⟨h, hi, hgateway, hframe⟩
  · left
    rw [hblank]
    rfl
  · -- an object that can be read is kept under the name that it says
    obtain ⟨hns', hname'⟩ := hw.filed _ _ _ _ hobject hm
    rw [← hns', ← hname', hns, hname] at hobject
    obtain ⟨r, rfl, hshows⟩ := hw.keeps.exists_eq_some hobject
    have hr := Except.ok.inj (hm.symm.trans hshows.ofConfigMap_eq)
    exact Or.inr ⟨r, rfl, congrArg Resource.frame hr⟩
  · rw [hgateway, hframe]
    exact hw.store i h hi ((congrArg Resource.ns hframe).symm.trans hns)
      ((congrArg Resource.name hframe).symm.trans hname)

/-- A write to another name changes nothing here. -/
theorem Framed.of_written_of_ne (hw : w.Framed ns name stored) (hc : w.Written h m w')
    (hne : (ns, name) ≠ (h.held.ns, h.held.name)) : w'.Framed ns name stored := by
  have hfiled := hc.accepted.filed hw.filed
  have hobject := hc.accepted.object?_of_ne hne
  refine ⟨hfiled, ?_, fun i h' hi hns hname => ?_⟩
  · have hkeeps := hw.keeps
    unfold Cluster.Keeps at hkeeps ⊢
    rwa [hobject]
  · rcases hc.store i h' hi with hi | ⟨-, hm⟩
    · exact hw.store i h' hi hns hname
    · obtain ⟨hns', hname'⟩ := hfiled _ _ _ _ hc.accepted.object?_self hm
      rw [← hns', ← hname', hns, hname] at hne
      exact absurd rfl hne

theorem Framed.of_written (hw : w.Framed ns name stored) (hc : w.Written h m w')
    (hns : h.held.ns = ns) (hname : h.held.name = name) {r' : Resource} (hshows : m.Shows r')
    (hr' : ∀ r, stored = some r → r.frame = r'.frame) : w'.Framed ns name (some r') := by
  have hobject := hc.accepted.object?_self
  rw [hns, hname] at hobject
  refine ⟨hc.accepted.filed hw.filed, ⟨m, hobject, hshows⟩, fun i h' hi hns' hname' => ?_⟩
  rcases hc.store i h' hi with hi | ⟨-, hm⟩
  · rcases hw.store i h' hi hns' hname' with hblank | ⟨r, hr, hframe⟩
    · exact Or.inl hblank
    · exact Or.inr ⟨r', rfl, hframe.trans (hr' r hr)⟩
  · have hheld := Except.ok.inj (hm.symm.trans hshows.ofConfigMap_eq)
    exact Or.inr ⟨r', rfl, congrArg Resource.frame hheld⟩

theorem framed_save (hw : w.Framed ns name stored) (i : Nat) :
    ∃ stored', (w.save i).Framed ns name stored' ∧ w.Leads (.save i) stored stored' := by
  rcases save_calm_or_written w i with hc | ⟨h, m, hi, hc⟩
  · exact ⟨stored, hw.of_calm hc, .still stored⟩
  by_cases hkey : (ns, name) = (h.held.ns, h.held.name)
  swap
  · exact ⟨stored, hw.of_written_of_ne hc hkey, .still stored⟩
  obtain ⟨rfl, rfl⟩ := Prod.mk.inj hkey
  have hheld := hw.store i h hi rfl rfl
  cases hc.accepted with
  | created hr hobject hwrite =>
    obtain rfl := hw.keeps.eq_none hobject
    have hblank : h.held.frame = h.gateway.blank := hheld.resolve_right nofun
    obtain ⟨r', hshows, hframe⟩ :=
      ConfigMap.exists_shows_of_write w.session.cluster.freshUid_ne hwrite
    rw [hblank] at hframe
    exact ⟨some r', hw.of_written hc rfl rfl hshows nofun, .created rfl hi hframe⟩
  | replaced m₀ hr hobject hversion hwrite =>
    obtain ⟨r, rfl, hm₀⟩ := hw.keeps.exists_eq_some hobject
    -- what has been created does not have the frame of an empty object
    have hsame : h.held.frame = r.frame := by
      rcases hheld with hblank | ⟨r₁, hr₁, hframe⟩
      · have huid : h.held.uid = "" := congrArg Resource.uid hblank
        exact absurd huid (of_decide_eq_true hr)
      · rw [hframe, ← Option.some.inj hr₁]
    rw [hm₀.uid_eq] at hwrite
    obtain ⟨r', hshows, hframe⟩ := ConfigMap.exists_shows_of_write hm₀.uid_ne hwrite
    have hr' : r'.frame = r.frame := by
      rw [hframe, hsame]
      rfl
    refine ⟨some r', hw.of_written hc rfl rfl hshows fun r₁ hr₁ => ?_, .replaced hr'⟩
    rw [hr', Option.some.inj hr₁]

theorem framed_step (hw : w.Framed ns name stored) (x : Step) :
    ∃ stored', (w.step x).Framed ns name stored' ∧ w.Leads x stored stored' := by
  cases x with
  | fetch i g => exact ⟨stored, hw.of_calm (calm_fetch w i g), .still stored⟩
  | call i c => exact ⟨stored, hw.of_calm (calm_call w i c), .still stored⟩
  | save i => exact framed_save hw i

theorem framed_run (hw : w.Framed ns name stored) (steps : List Step) :
    ∃ stored', (w.run steps).Framed ns name stored' ∧
      ∀ r, stored = some r → ∃ r', stored' = some r' ∧ r'.frame = r.frame := by
  induction steps generalizing w stored with
  | nil => exact ⟨stored, hw, fun r hr => ⟨r, hr, rfl⟩⟩
  | cons x steps ih =>
    obtain ⟨stored₁, hw₁, hleads⟩ := framed_step hw x
    obtain ⟨stored₂, hw₂, hkept⟩ := ih hw₁
    refine ⟨stored₂, hw₂, fun r hr => ?_⟩
    subst hr
    cases hleads with
    | still => exact hkept r rfl
    | replaced hframe =>
      obtain ⟨r₂, hr₂, hframe₂⟩ := hkept _ rfl
      exact ⟨r₂, hr₂, hframe₂.trans hframe⟩

theorem framed_start {σ : Session} (hfiled : σ.cluster.Filed)
    (hobject : ∀ m, σ.cluster.object? ns name = some m → ∃ r, m.Shows r) :
    ∃ stored, Framed ns name stored { session := σ } := by
  cases hm : σ.cluster.object? ns name with
  | none => exact ⟨none, hfiled, hm, nofun⟩
  | some m =>
    obtain ⟨r, hshows⟩ := hobject m hm
    exact ⟨some r, hfiled, ⟨m, hm, hshows⟩, nofun⟩

/-- No save takes away anything that the store does not own. Whatever the order of the steps, an
object keeps its name, its UID, its labels and all else of its frame from one state to any later
one. An object that a step creates is one that a store has saved, and it has the labels of that
store's configuration and a UID, and nothing else but the mapping. -/
theorem frame_run {σ : Session} (hfiled : σ.cluster.Filed)
    (hobject : ∀ m, σ.cluster.object? ns name = some m → ∃ r, m.Shows r) (steps : List Step) :
    let w := run steps { session := σ }
    (∀ m, w.session.cluster.object? ns name = some m → ∀ later,
      ∃ m', (w.run later).session.cluster.object? ns name = some m' ∧ m'.frame = m.frame) ∧
    (w.session.cluster.object? ns name = none → ∀ x m,
      (w.step x).session.cluster.object? ns name = some m →
        ∃ i h u, x = .save i ∧ w.stores i = some h ∧ u ≠ "" ∧ m.frame = {
          name := .str name, ns := .str ns, uid := .str u
          labels := Cluster.orNull (.ofTexts h.gateway.config.labels) }) := by
  intro w
  obtain ⟨stored₀, hstart⟩ := framed_start hfiled hobject
  obtain ⟨stored, hw, -⟩ := framed_run hstart steps
  refine ⟨fun m hm later => ?_, fun hnone x m hm => ?_⟩
  · obtain ⟨r, rfl, hshows⟩ := hw.keeps.exists_eq_some hm
    obtain ⟨stored', hw', hkept⟩ := framed_run hw later
    obtain ⟨r', rfl, hframe⟩ := hkept r rfl
    obtain ⟨m', hm', hshows'⟩ := hw'.keeps
    exact ⟨m', hm', by rw [hshows.frame_eq, hshows'.frame_eq, hframe]⟩
  · obtain rfl := hw.keeps.eq_none hnone
    obtain ⟨stored', hw', hleads⟩ := framed_step hw x
    obtain ⟨r', rfl, hshows⟩ := hw'.keeps.exists_eq_some hm
    obtain ⟨hns, hname⟩ := hw'.filed _ _ _ _ hm hshows.ofConfigMap_eq
    cases hleads with
    | @created i h u _ hx hi hframe =>
      have hu : u ≠ "" := by
        have huid : r'.uid = u := congrArg Resource.uid hframe
        exact huid ▸ hshows.uid_ne
      have hns' : h.gateway.config.ns = ns := (congrArg Resource.ns hframe).symm.trans hns
      have hname' : h.gateway.config.name = name := (congrArg Resource.name hframe).symm.trans hname
      refine ⟨i, h, u, hx, hi, hu, ?_⟩
      rw [hshows.frame_eq, hframe, Gateway.blank, hns', hname']
      rfl

/-- A store with labels of its own saves over an object that has others, and gives up none of what
it does not own; where there is no object, it creates one with its labels. -/
theorem frame_run_labels :
    let g : Gateway := { config := { labels := [("made", "here")] }, api := true }
    let m : ConfigMap := {
      name := .str objectName, ns := .str objectNamespace, uid := .str "u", version := .str "1"
      labels := .ofTexts [("a", "b")], finalizers := .strings ["f"], data := .ofTexts [("x", "y")] }
    let σ : Session := { cluster := ({} : Cluster).seed objectNamespace objectName m }
    let steps := [.fetch 0 g, .call 0 (.addAccount "1"), .save 0]
    let w := run steps { session := σ }
    let w' := run steps { session := {} }
    w.accepted.length = 1 ∧
      (∃ m', w.session.cluster.object? objectNamespace objectName = some m' ∧
        m'.frame = m.frame) ∧
      ∃ (m' : ConfigMap) (u : String),
        w'.session.cluster.object? objectNamespace objectName = some m' ∧ m'.frame = {
          name := .str objectName, ns := .str objectNamespace, uid := .str u
          labels := .ofTexts [("made", "here")] } := by
  intro g m σ steps w w'
  have hshows : (Cluster.normalized m).Shows {
      uid := "u", version := some "1", labels := [("a", "b")], finalizers := ["f"]
      data := [("x", "y")] } := ⟨by decide, rfl⟩
  have hfiled : σ.cluster.Filed := Cluster.filed_put nofun fun r hr => by
    obtain rfl := Except.ok.inj (hshows.ofConfigMap_eq.symm.trans hr)
    exact ⟨rfl, rfl⟩
  have hobject : σ.cluster.object? objectNamespace objectName = some (Cluster.normalized m) := rfl
  obtain ⟨hkept, -⟩ := frame_run hfiled
    (fun m' hm' => ⟨_, Option.some.inj (hobject.symm.trans hm') ▸ hshows⟩) []
  refine ⟨by decide +kernel, hkept _ hobject steps, ?_⟩
  let start : Session := {}
  let before : List Step := [.fetch 0 g, .call 0 (.addAccount "1")]
  have hempty : start.cluster.Filed := nofun
  have hnone : start.cluster.object? objectNamespace objectName = none := rfl
  obtain ⟨-, hcreated⟩ := frame_run hempty
    (fun m' hm' => absurd (hnone.symm.trans hm') nofun) before
  obtain ⟨m', hm'⟩ : ∃ m', w'.session.cluster.object? objectNamespace objectName = some m' :=
    Option.isSome_iff_exists.mp (by decide +kernel)
  obtain ⟨i, h, u, hx, hi, -, hframe⟩ := hcreated (by decide +kernel) (.save 0) m' hm'
  obtain rfl := Step.save.inj hx
  have hlabels : ((run before { session := start }).stores 0).map (·.gateway.config.labels) =
      some [("made", "here")] := by decide +kernel
  rw [hi] at hlabels
  have hconfigured : h.gateway.config.labels = [("made", "here")] := Option.some.inj hlabels
  rw [hconfigured] at hframe
  exact ⟨m', u, hm', hframe⟩

end World

end AuthMap
