import AuthMap.Proofs.Cluster.Preservation

/-! A store that alone saves. Each of its saves is accepted, the first of them creates the object
if there was none, and what the store holds from then on is what is fetched. -/

namespace AuthMap

/-- No store but one saves, and that one is not made again. -/
def Step.LeavesSavingTo (i : Nat) : Step → Prop
  | .fetch j _ => j ≠ i
  | .call _ _ => True
  | .save j => j = i

/-- An object with a UID has been created. -/
theorem Resource.exists?_of_ofConfigMap {m : ConfigMap} {r : Resource}
    (huid : m.uid.isEmpty = false) (hm : ofConfigMap m = .ok r) : r.exists? = true := by
  obtain ⟨-, -, hread, -⟩ := ofConfigMap_eq_ok hm
  have hkept : m.uid.orEmpty (.str "") = m.uid := by simp [Json.orEmpty, huid]
  rw [hkept] at hread
  have hne : r.uid ≠ "" := by
    intro h
    rw [Json.asString_eq_ok hread, h] at huid
    cases huid
  simpa [exists?] using hne

theorem Cluster.Current.exists?_eq {r : Resource} {stored : Option Resource}
    (h : Current r stored) : r.exists? = stored.isSome := by
  cases stored with
  | none => exact h
  | some held => exact h.1

namespace Gateway

variable {g : Gateway} {r r' : Resource} {σ σ' : Session}

theorem api_of_fetch (h : g.fetch σ = .ok r σ') : g.api = true := by
  cases hapi : g.api with
  | true => rfl
  | false =>
    rw [fetch, ensureStarted_of_not_api hapi] at h
    cases h

/-- Without failures to come a fetch leaves the cluster and the failures, whatever it gives. -/
theorem fetch_goesOn (g : Gateway) (hf : σ.failures = []) :
    ∃ x σ', g.fetch σ = Work.result x σ' ∧ σ.GoesOn σ.cluster σ' := by
  cases hapi : g.api with
  | false =>
    refine ⟨.error (.store (g.notConnected notStarted)), σ, ?_, rfl, rfl⟩
    rw [fetch, ensureStarted_of_not_api hapi]
    rfl
  | true => exact ⟨_, fetch_reads hapi hf⟩

theorem reads_of_fetch (hf : σ.failures = []) (h : g.fetch σ = .ok r σ') :
    g.reads σ.cluster = .ok r ∧ σ.GoesOn σ.cluster σ' := by
  obtain ⟨σ₁, hfetch, hσ⟩ := fetch_reads (api_of_fetch h) hf
  rw [h] at hfetch
  cases hreads : g.reads σ.cluster with
  | error t =>
    rw [hreads] at hfetch
    cases hfetch
  | ok r₁ =>
    rw [hreads] at hfetch
    cases hfetch
    exact ⟨rfl, hσ⟩

/-- What a fetch goes by: nothing is there, or an object that has been created. -/
theorem offers_of_fetch (hf : σ.failures = []) (hfiled : σ.cluster.Filed)
    (huid : ∀ m, σ.cluster.object? g.config.ns g.config.name = some m → m.uid.isEmpty = false)
    (h : g.fetch σ = .ok r σ') :
    ∃ stored, σ.cluster.Offers g.config.ns g.config.name stored ∧ r = stored.getD g.blank ∧
      (stored = none ↔ σ.cluster.object? g.config.ns g.config.name = none) := by
  obtain ⟨hreads, -⟩ := reads_of_fetch hf h
  unfold reads at hreads
  cases hm : σ.cluster.object? g.config.ns g.config.name with
  | none =>
    rw [hm] at hreads
    exact ⟨none, hm, (Except.ok.inj hreads).symm, by simp⟩
  | some m =>
    rw [hm] at hreads
    obtain ⟨hns, hname⟩ := hfiled _ _ _ _ hm hreads
    have hexists := Resource.exists?_of_ofConfigMap (huid m hm) hreads
    exact ⟨some r, ⟨m, hm, hreads, hname, hns, hexists⟩, rfl, by simp⟩

/-- What is fetched is at the version that it can be saved at. -/
theorem current_of_offers {c : Cluster} {stored : Option Resource}
    (h : c.Offers g.config.ns g.config.name stored) :
    (stored.getD g.blank).ns = g.config.ns ∧ (stored.getD g.blank).name = g.config.name ∧
      Cluster.Current (stored.getD g.blank) stored := by
  cases stored with
  | none => exact ⟨rfl, rfl, rfl⟩
  | some held =>
    obtain ⟨-, -, -, hname, hns, hexists⟩ := h
    exact ⟨hns, hname, hexists, rfl⟩

theorem requests_of_save (hapi : g.api = true) (h : g.save r σ = .ok r' σ') :
    σ'.requests = σ.requests ++ [saveRequest r] := by
  obtain ⟨answer, σ₁, hasked, hsave⟩ := save_asked hapi r σ
  rw [hsave] at h
  cases hsaved : saved r answer with
  | error t =>
    rw [hsaved] at h
    cases h
  | ok r₁ =>
    rw [hsaved] at h
    cases h
    exact hasked.requests

end Gateway

/-- A store that goes to one object, at the version of the cluster. -/
structure Holder.Latest (g : Gateway) (stored : Option Resource) (h : Holder) : Prop where
  gateway : h.gateway = g
  name : h.held.name = g.config.name
  ns : h.held.ns = g.config.ns
  current : Cluster.Current h.held stored

/-- All that a save of the one store goes by. -/
structure World.Alone (i : Nat) (g : Gateway) (stored : Option Resource) (w : World) : Prop where
  failures : w.session.failures = []
  offers : w.session.cluster.Offers g.config.ns g.config.name stored
  store : ∃ h, w.stores i = some h ∧ h.Latest g stored

/-! ### What one step does -/

namespace World

variable {w : World} {i j : Nat} {g : Gateway} {stored : Option Resource} {σ : Session}

theorem Alone.session (hw : w.Alone i g stored) (hσ : w.session.GoesOn w.session.cluster σ) :
    Alone i g stored { w with session := σ } := by
  obtain ⟨hcluster, hfailures⟩ := hσ
  exact ⟨hfailures.trans hw.failures, hcluster.symm ▸ hw.offers, hw.store⟩

theorem Alone.update (hw : w.Alone i g stored) {h : Holder} (hh : j = i → h.Latest g stored) :
    Alone i g stored { w with stores := Function.update w.stores j (some h) } := by
  refine ⟨hw.failures, hw.offers, ?_⟩
  by_cases hij : j = i
  · subst hij
    exact ⟨h, Function.update_self j _ _, hh rfl⟩
  · obtain ⟨h', hi, hh'⟩ := hw.store
    exact ⟨h', (Function.update_of_ne (Ne.symm hij) _ _).trans hi, hh'⟩

theorem alone_fetch (hw : w.Alone i g stored) (hj : j ≠ i) (g' : Gateway) :
    (w.fetch j g').Alone i g stored := by
  obtain ⟨x, σ, hfetch, hσ⟩ := g'.fetch_goesOn hw.failures
  unfold fetch
  rw [hfetch]
  cases x with
  | error t => exact hw.session hσ
  | ok r => exact (hw.session hσ).update fun hij => absurd hij hj

theorem alone_call (hw : w.Alone i g stored) (j : Nat) (c : Call) :
    (w.call j c).Alone i g stored := by
  unfold call
  cases hj : w.stores j with
  | none => exact hw
  | some h =>
    -- a call writes texts, and nothing that a save goes by
    have hlatest (hij : j = i) : h.Latest g stored := by
      obtain ⟨h', hi, hh'⟩ := hw.store
      rw [← hij, hj] at hi
      exact Option.some.inj hi ▸ hh'
    dsimp only
    rw [Call.perform_eq_told]
    cases c.effect h.held with
    | error t => exact hw.update fun hij => { hlatest hij with }
    | ok e =>
      have hlogged := hw.session (.logged w.session e.2)
      exact hlogged.update fun hij => { hlatest hij with }

theorem save_of_alone (hapi : g.api = true) (hw : w.Alone i g stored) :
    ∃ h u, w.stores i = some h ∧ h.Latest g stored ∧
      g.save h.held w.session = .ok (w.session.cluster.written h.held u) (w.save i).session ∧
      (∃ h', (w.save i).stores i = some h' ∧ h'.held = w.session.cluster.written h.held u) ∧
      (w.save i).Alone i g (some (w.session.cluster.written h.held u)) := by
  obtain ⟨h, hi, hh⟩ := hw.store
  have hoffers := hw.offers
  rw [← hh.ns, ← hh.name] at hoffers
  obtain ⟨u, σ, hsave, hholds, -, hfailures⟩ :=
    Gateway.save_of_current hapi hw.failures hoffers hh.current
  have heq := save_of_ok hi (hh.gateway.symm ▸ hsave)
  rw [heq]
  obtain ⟨m, -, -, -, -, hexists, -⟩ := id hholds
  rw [hh.ns, hh.name] at hholds
  exact ⟨h, u, hi, hh, hsave, ⟨_, Function.update_self i _ _, rfl⟩, hfailures, hholds.offers, _,
    Function.update_self i _ _, hh.gateway, hh.name, hh.ns, hexists, rfl⟩

theorem alone_step (hapi : g.api = true) (hw : w.Alone i g stored) {x : Step}
    (hx : x.LeavesSavingTo i) :
    ∃ stored', (w.step x).Alone i g stored' ∧ (stored' = none ↔ stored = none ∧ .save i ≠ x) := by
  cases x with
  | fetch j g' => exact ⟨stored, alone_fetch hw hx g', by simp⟩
  | call j c => exact ⟨stored, alone_call hw j c, by simp⟩
  | save j =>
    obtain rfl : j = i := hx
    obtain ⟨h, u, -, -, -, -, hw'⟩ := save_of_alone hapi hw
    exact ⟨_, hw', by simp⟩

theorem alone_run (hapi : g.api = true) (hw : w.Alone i g stored) {steps : List Step}
    (hsteps : ∀ x ∈ steps, x.LeavesSavingTo i) :
    ∃ stored', (w.run steps).Alone i g stored' ∧
      (stored' = none ↔ stored = none ∧ .save i ∉ steps) := by
  induction steps generalizing w stored with
  | nil => exact ⟨stored, hw, by simp⟩
  | cons x steps ih =>
    obtain ⟨stored₁, hw₁, hstored₁⟩ := alone_step hapi hw (hsteps x List.mem_cons_self)
    obtain ⟨stored₂, hw₂, hstored₂⟩ := ih hw₁ fun y hy => hsteps y (List.mem_cons_of_mem _ hy)
    refine ⟨stored₂, hw₂, ?_⟩
    rw [hstored₂, hstored₁, List.mem_cons, not_or, and_assoc]

theorem alone_start {r : Resource} (hf : w.session.failures = [])
    (hfiled : w.session.cluster.Filed)
    (huid : ∀ m, w.session.cluster.object? g.config.ns g.config.name = some m →
      m.uid.isEmpty = false)
    (hmade : g.fetch w.session = .ok r σ) :
    ∃ stored, (w.fetch i g).Alone i g stored ∧
      (stored = none ↔ w.session.cluster.object? g.config.ns g.config.name = none) := by
  obtain ⟨-, hcluster, hfailures⟩ := Gateway.reads_of_fetch hf hmade
  obtain ⟨stored, hoffers, rfl, hstored⟩ := Gateway.offers_of_fetch hf hfiled huid hmade
  obtain ⟨hns, hname, hcurrent⟩ := Gateway.current_of_offers hoffers
  rw [fetch_of_ok hmade]
  exact ⟨stored, ⟨hfailures.trans hf, hcluster.symm ▸ hoffers, _, Function.update_self i _ _, rfl,
    hname, hns, hcurrent⟩, hstored⟩

/-- Every save of a store that alone saves is accepted. It makes one request, which creates the
object at the first save if nothing was there when the store was made, and replaces it otherwise.
The texts stay as they were held, and what is held from then on is what every fetch gives. -/
theorem save_run {r₀ : Resource} {σ₀ : Session} (hf : σ.failures = []) (hfiled : σ.cluster.Filed)
    (huid : ∀ m, σ.cluster.object? g.config.ns g.config.name = some m → m.uid.isEmpty = false)
    (hmade : g.fetch σ = .ok r₀ σ₀) {steps : List Step}
    (hsteps : ∀ x ∈ steps, x.LeavesSavingTo i) :
    let w := run (.fetch i g :: steps) { session := σ }
    let creates := σ.cluster.object? g.config.ns g.config.name = none ∧ .save i ∉ steps
    ∃ h r, w.stores i = some h ∧ h.gateway.save h.held w.session = .ok r (w.save i).session ∧
      (∃ req, (w.save i).session.requests = w.session.requests ++ [req] ∧
        (creates → req = .create h.held.ns h.held.toConfigMap) ∧
        (¬ creates → req = .replace h.held.ns h.held.name h.held.toConfigMap)) ∧
      r.data = h.held.data ∧ (∃ h', (w.save i).stores i = some h' ∧ h'.held = r) ∧
      ∀ g' : Gateway, g'.api = true → g'.config.ns = g.config.ns →
        g'.config.name = g.config.name → ∃ σ', g'.fetch (w.save i).session = .ok r σ' := by
  intro w creates
  have hapi := Gateway.api_of_fetch hmade
  obtain ⟨stored₀, hstart, hstored₀⟩ :=
    alone_start (w := { session := σ }) (i := i) hf hfiled huid hmade
  obtain ⟨stored, hw, hstored⟩ := alone_run hapi hstart hsteps
  obtain ⟨h, u, hi, hh, hsave, hheld, hw'⟩ := save_of_alone hapi hw
  have hcreates : creates ↔ stored = none := by rw [hstored, hstored₀]
  have hexists := hh.current.exists?_eq
  refine ⟨h, w.session.cluster.written h.held u, hi, hh.gateway.symm ▸ hsave,
    ⟨_, Gateway.requests_of_save hapi hsave, fun hc => ?_, fun hc => ?_⟩, rfl, hheld,
    fun g' hapi' hns hname => ?_⟩
  · rw [hcreates.mp hc] at hexists
    exact if_neg (by simp [hexists])
  · obtain ⟨r, hr⟩ := Option.ne_none_iff_exists'.mp fun hnone => hc (hcreates.mpr hnone)
    rw [hr] at hexists
    exact if_pos hexists
  · obtain ⟨σ', hfetch, -⟩ := Gateway.fetch_of_offers hapi' hw'.failures hns hname hw'.offers
    exact ⟨σ', hfetch⟩

/-- The first save of a store has created the object, and its second one replaces it. Another store
that is made then reads the accounts of both. -/
theorem save_run_second :
    let g : Gateway := { api := true }
    let steps := [.call 0 (.addAccount "1"), .save 0, .fetch 1 g, .call 0 (.addAccount "2")]
    let w := run (.fetch 0 g :: steps) { session := {} }
    ∃ h r, w.stores 0 = some h ∧
      (w.save 0).session.requests =
        w.session.requests ++ [.replace h.held.ns h.held.name h.held.toConfigMap] ∧
      r.data = [("mapAccounts", "- '1'\n- '2'\n")] ∧
      ∃ σ, g.fetch (w.save 0).session = .ok r σ := by
  intro g steps w
  let start : Session := {}
  have hnone : start.cluster.object? g.config.ns g.config.name = none := rfl
  have hfiled : start.cluster.Filed := nofun
  have huid : ∀ m, start.cluster.object? g.config.ns g.config.name = some m →
      m.uid.isEmpty = false := fun m hm => absurd (hnone.symm.trans hm) nofun
  obtain ⟨σ₀, hmade, -⟩ := Gateway.fetch_reads (g := g) (σ := start) rfl rfl
  have hsteps : ∀ x ∈ steps, x.LeavesSavingTo 0 := by
    simp only [steps, List.forall_mem_cons]
    exact ⟨trivial, rfl, nofun, trivial, by simp⟩
  obtain ⟨h, r, hi, -, ⟨req, hrequests, -, hreplace⟩, hdata, -, hread⟩ :=
    save_run rfl hfiled huid hmade hsteps
  have hsaved : ¬ (start.cluster.object? g.config.ns g.config.name = none ∧
      .save 0 ∉ steps) := fun hc => hc.2 (by simp [steps])
  have htexts : (w.stores 0).map (·.held.data) = some [("mapAccounts", "- '1'\n- '2'\n")] := by
    decide +kernel
  rw [hi] at htexts
  rw [hreplace hsaved] at hrequests
  exact ⟨h, r, hi, hrequests, hdata.trans (Option.some.inj htexts), hread g rfl rfl rfl⟩

end World

end AuthMap
