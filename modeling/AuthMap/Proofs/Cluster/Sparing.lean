import AuthMap.Proofs.Cluster.Commands
import AuthMap.Proofs.Cluster.Preservation
import AuthMap.Proofs.Store.Interchange

/-! Stores that spare a principal: they edit the records of others only. Whatever the order of their
steps and whichever requests fail, the records of that principal stay, under the name they are
kept under. -/

namespace AuthMap

/-! ### Calls -/

namespace Resource

variable {r : Resource} {own : List Identity} {p : Principal}

theorem identities_of_get (h : r.get p = .ok own) :
    ∃ rs, r.identities = .ok rs ∧ own = rs.filter (·.isFor p) := by
  obtain ⟨held, hheld, h⟩ := Except.bind_eq_ok.mp h
  rw [Call.identitySnapshot_eq] at hheld
  obtain ⟨rs, hrs, rfl⟩ := Except.map_eq_ok.mp hheld
  exact ⟨rs, hrs, (Except.ok.inj h).symm⟩

theorem find_of_get (h : r.get p = .ok own) :
    r.find p =
      if own.isEmpty then .error (.store (.identityNotFound p.toText)) else .ok own := by
  obtain ⟨rs, hrs, rfl⟩ := identities_of_get h
  rw [find, Call.identitySnapshot_eq, hrs]
  simp only [Except.map, Except.bind_ok, Snapshot.find, Snapshot.get]
  exact apply_ite StoreError.lift _ _ _

end Resource

/-- The call edits the records of no principal with this text. -/
def Call.Spares (p : Principal) (c : Call) : Prop := ∀ q, c.EditOf q → p.toText ≠ q.toText

theorem Call.exists_editOf {c : Call} (hc : c.editsIdentities) : ∃ q, c.EditOf q := by
  cases c with
  | addIdentity q username groups => exact ⟨q, .add username groups⟩
  | removeIdentity q all => exact ⟨q, .remove all⟩
  | addAccount | removeAccount | accounts | identities | get | find => cases hc

theorem Call.get_next_of_spares {c : Call} {p : Principal} (hc : c.Spares p) {r : Resource}
    {own : List Identity} (h : r.get p = .ok own) : (c.next r).get p = .ok own := by
  obtain ⟨rs, hrs, -⟩ := Resource.identities_of_get h
  rw [← h]
  by_cases hedit : c.editsIdentities
  · obtain ⟨q, hq⟩ := exists_editOf hedit
    cases ha : c.answer r {} with
    | error t => rw [next_of_refused ha]
    | ok a =>
      obtain ⟨own', hreassigned⟩ := reassigned_of_answer hq hrs ha
      exact hreassigned.others p (hc q hq)
  · exact Resource.get_congr (Resource.identities_congr (texts_next_of_no_edit hedit)) p

/-! ### Objects -/

/-- What is kept under a name can be read, and these are the records of the principal there. -/
def Cluster.Lists (ns name : String) (p : Principal) (own : List Identity) (c : Cluster) : Prop :=
  match c.object? ns name with
  | none => own = []
  | some m => ∃ r, Resource.ofConfigMap m = .ok r ∧ r.get p = .ok own

namespace Cluster

variable {ns name : String} {p : Principal} {own : List Identity} {c : Cluster}

theorem Lists.eq_nil (h : c.Lists ns name p own) (hobject : c.object? ns name = none) :
    own = [] := by
  rwa [Lists, hobject] at h

theorem Lists.get_eq (h : c.Lists ns name p own) {m : ConfigMap}
    (hobject : c.object? ns name = some m) {r : Resource} (hr : Resource.ofConfigMap m = .ok r) :
    r.get p = .ok own := by
  rw [Lists, hobject] at h
  obtain ⟨r', hr', hown⟩ := h
  rwa [Except.ok.inj (hr.symm.trans hr')]

theorem Lists.of_object?_eq {c' : Cluster} (h : c.Lists ns name p own)
    (hobject : c'.object? ns name = c.object? ns name) : c'.Lists ns name p own := by
  rwa [Lists, hobject]

end Cluster

namespace Gateway

variable {g : Gateway} {r r' : Resource} {c c' : Cluster} {m : ConfigMap} {p : Principal}
  {own : List Identity}

theorem get_blank (g : Gateway) (p : Principal) : g.blank.get p = .ok [] := by
  have hnone : g.blank.identities = .ok [] := rfl
  exact Resource.get_eq hnone p

/-- An accepted write leaves the texts as they were to be saved. -/
theorem Accepted.data_eq (h : Accepted r c m c') (hm : Resource.ofConfigMap m = .ok r') :
    r'.data = r.data ∧ r'.ns = r.ns ∧ r'.name = r.name := by
  obtain ⟨c₁, uid, -, hwrite⟩ := h.exists_write
  obtain ⟨rfl, -⟩ := Prod.mk.inj hwrite
  obtain ⟨-, -, huid, -⟩ := Resource.ofConfigMap_eq_ok hm
  have hread := Resource.ofConfigMap_written r huid (some (toString c₁.nextVersion))
  have hr' := Except.ok.inj (hread.symm.trans hm)
  rw [← hr']
  exact ⟨rfl, rfl, rfl⟩

theorem Fetches.get_eq (h : g.Fetches c r) (hfiled : c.Filed)
    (hc : c.Lists r.ns r.name p own) :
    r.get p = .ok own ∨ r.exists? = false ∧ r.get p = .ok [] := by
  rcases h with rfl | ⟨m, hobject, hm⟩
  · exact Or.inr ⟨rfl, g.get_blank p⟩
  · obtain ⟨hns, hname⟩ := hfiled _ _ _ _ hobject hm
    rw [← hns, ← hname] at hobject
    exact Or.inl (hc.get_eq hobject hm)

theorem reads_of_lists (h : c.Lists g.config.ns g.config.name p own) :
    ∃ r, g.reads c = .ok r ∧ r.get p = .ok own := by
  unfold reads
  unfold Cluster.Lists at h
  cases hobject : c.object? g.config.ns g.config.name with
  | none =>
    rw [hobject] at h
    obtain rfl : own = [] := h
    exact ⟨_, rfl, g.get_blank p⟩
  | some m =>
    rw [hobject] at h
    exact h

end Gateway

/-! ### What one step does -/

def Step.Spares (p : Principal) : Step → Prop
  | .call _ c => c.Spares p
  | .fetch _ _ | .save _ => True

/-- Where a store holds an object of this name, these are the records of the principal in it,
unless it has found none there. -/
def Holder.Lists (ns name : String) (p : Principal) (own : List Identity) (h : Holder) : Prop :=
  h.held.ns = ns → h.held.name = name →
    h.held.get p = .ok own ∨ h.held.exists? = false ∧ h.held.get p = .ok []

structure World.Lists (ns name : String) (p : Principal) (own : List Identity) (w : World) :
    Prop where
  filed : w.session.cluster.Filed
  cluster : w.session.cluster.Lists ns name p own
  store : ∀ i h, w.stores i = some h → h.Lists ns name p own

namespace World

variable {w : World} {i : Nat} {ns name : String} {p : Principal} {own : List Identity}

theorem Lists.fetch (hw : w.Lists ns name p own) (i : Nat) (g : Gateway) :
    (w.fetch i g).Lists ns name p own := by
  obtain ⟨hcluster, hstores⟩ := w.fetch_cases i g
  refine ⟨hcluster ▸ hw.filed, hcluster ▸ hw.cluster, fun j h' hj => ?_⟩
  rcases hstores j h' hj with hfetches | hj
  · rintro rfl rfl
    exact hfetches.get_eq hw.filed hw.cluster
  · exact hw.store j h' hj

theorem Lists.call (hw : w.Lists ns name p own) (i : Nat) {c : Call} (hc : c.Spares p) :
    (w.call i c).Lists ns name p own := by
  obtain ⟨hcluster, hstores⟩ := w.call_cases i c
  refine ⟨hcluster ▸ hw.filed, hcluster ▸ hw.cluster, fun j h' hj => ?_⟩
  obtain ⟨h, hh, -, hheld | hheld⟩ := hstores j h' hj
  · rw [Holder.Lists, hheld]
    exact hw.store j h hh
  · obtain ⟨new, -, hnext⟩ := c.exists_next_eq h.held
    have hlists := hw.store j h hh
    intro hns hname
    rw [hheld] at hns hname ⊢
    rw [hnext] at hns hname
    rcases hlists hns hname with hown | ⟨hexists, hnone⟩
    · exact Or.inl (Call.get_next_of_spares hc hown)
    · exact Or.inr ⟨by rw [hnext]; exact hexists, Call.get_next_of_spares hc hnone⟩

/-- What an accepted save has written has the records that are listed: where nothing was there,
none are. -/
theorem Lists.get_of_accepted (hw : w.Lists ns name p own) {h : Holder} (hi : w.stores i = some h)
    {m : ConfigMap} {c' : Cluster} (haccepted : Gateway.Accepted h.held w.session.cluster m c')
    (hns : h.held.ns = ns) (hname : h.held.name = name) : h.held.get p = .ok own := by
  rcases hw.store i h hi hns hname with hown | ⟨hexists, hnone⟩
  · exact hown
  · cases haccepted with
    | created hr hobject hwrite =>
      rw [hns, hname] at hobject
      rw [hnone, hw.cluster.eq_nil hobject]
    | replaced m₀ hr hobject hversion hwrite =>
      rw [hexists] at hr
      cases hr

theorem Lists.backed (hw : w.Lists ns name p own) {r : Resource} (hns : r.ns = ns)
    (hname : r.name = name) : r.Backed w.session.cluster := by
  rintro - m hobject
  have hlists := hw.cluster
  rw [hns, hname] at hobject
  rw [Cluster.Lists, hobject] at hlists
  obtain ⟨held, hheld, -⟩ := hlists
  exact ⟨held, hheld⟩

theorem Lists.of_written (hw : w.Lists ns name p own) {h : Holder} {m : ConfigMap} {w' : World}
    (hi : w.stores i = some h) (hwritten : w.Written h m w') : w'.Lists ns name p own := by
  have haccepted := hwritten.accepted
  have hfiled := haccepted.filed hw.filed
  -- what is read back is listed here as it was saved
  have hget {r : Resource} (hm : Resource.ofConfigMap m = .ok r) (hns : h.held.ns = ns)
      (hname : h.held.name = name) : r.get p = .ok own := by
    obtain ⟨hdata, -⟩ := haccepted.data_eq hm
    rw [Resource.get_congr (congrArg decodeRecords hdata)]
    exact hw.get_of_accepted hi haccepted hns hname
  refine ⟨hfiled, ?_, fun j h' hj => ?_⟩
  · by_cases hkey : (ns, name) = (h.held.ns, h.held.name)
    · obtain ⟨hns, hname⟩ := Prod.mk.inj hkey
      obtain ⟨r, hm⟩ := haccepted.ofConfigMap_eq_ok (hw.backed hns.symm hname.symm)
      rw [Cluster.Lists, hns, hname, haccepted.object?_self]
      exact ⟨r, hm, hget hm hns.symm hname.symm⟩
    · exact hw.cluster.of_object?_eq (haccepted.object?_of_ne hkey)
  · rcases hwritten.store j h' hj with hj | ⟨-, hm⟩
    · exact hw.store j h' hj
    · obtain ⟨-, hns', hname'⟩ := haccepted.data_eq hm
      exact fun hns hname => Or.inl (hget hm (hns' ▸ hns) (hname' ▸ hname))

theorem Lists.save (hw : w.Lists ns name p own) (i : Nat) : (w.save i).Lists ns name p own := by
  rcases w.save_cases i with ⟨hcluster, hstores⟩ | ⟨h, m, hi, hwritten⟩
  · exact ⟨hcluster ▸ hw.filed, hcluster ▸ hw.cluster, hstores ▸ hw.store⟩
  · exact hw.of_written hi hwritten

theorem Lists.step (hw : w.Lists ns name p own) {x : Step} (hx : x.Spares p) :
    (w.step x).Lists ns name p own := by
  cases x with
  | fetch i g => exact hw.fetch i g
  | call i c => exact hw.call i hx
  | save i => exact hw.save i

/-- The records of a principal that is spared stay over any run. -/
theorem Lists.run (hw : w.Lists ns name p own) {steps : List Step}
    (hsteps : ∀ x ∈ steps, x.Spares p) : (w.run steps).Lists ns name p own := by
  induction steps generalizing w with
  | nil => exact hw
  | cons x steps ih =>
    exact ih (hw.step (hsteps x List.mem_cons_self))
      fun y hy => hsteps y (List.mem_cons_of_mem x hy)

end World

end AuthMap
