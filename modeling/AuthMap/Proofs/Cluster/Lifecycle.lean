import AuthMap.Proofs.Cluster.Requests
import Mathlib.Data.List.Induction

/-! The life of a gateway. Requests can be made from a startup that succeeds to the next shutdown,
and a startup that fails in between takes nothing away. -/

namespace AuthMap.Gateway

/-- What a gateway is asked to do. -/
inductive Task where
  | startup (s : Sources)
  | shutdown
  | fetch
  | save (r : Resource)
  | health

inductive Outcome where
  | done
  | fetched (r : Resource)
  | saved (r : Resource)
  | health (state : Health) (text : String)
  deriving Repr

/-- What comes of a task, with the gateway and the session to go on with. -/
structure Turn where
  result : Except Trouble Outcome
  gateway : Gateway
  session : Session

def Turn.ofWork (g : Gateway) (w : Work Outcome) (σ : Session) : Turn :=
  match w σ with
  | .ok a σ' => ⟨.ok a, g, σ'⟩
  | .error t σ' => ⟨.error t, g, σ'⟩

def turn (g : Gateway) (σ : Session) : Task → Turn
  | .startup s =>
    let x := g.startup s
    ⟨(StoreError.lift x.result).map fun _ => .done, x.gateway, σ.logged x.events⟩
  | .shutdown => ⟨.ok .done, g.shutdown, σ⟩
  | .fetch => .ofWork g (do pure (.fetched (← g.fetch))) σ
  | .save r => .ofWork g (do pure (.saved (← g.save r))) σ
  | .health => .ofWork g (do
      let (state, text) ← g.health
      pure (.health state text)) σ

def advance (x : Gateway × Session) (t : Task) : Gateway × Session :=
  let y := x.1.turn x.2 t
  (y.gateway, y.session)

/-- The gateway of a configuration and the session, after some tasks. -/
def life (config : Config) (σ : Session) (ts : List Task) : Gateway × Session :=
  ts.foldl advance ({ config }, σ)

/-- A startup has succeeded, and there has been no shutdown since. -/
def Live (config : Config) (σ : Session) (ts : List Task) : Prop :=
  ∃ before s later, ts = before ++ .startup s :: later ∧ Task.shutdown ∉ later ∧
    ((life config σ before).1.startup s).result = .ok ()

/-- The request that a task asks the cluster for. -/
def Task.request? (config : Config) : Task → Option Request
  | .fetch => some (.read config.ns config.name)
  | .save r => some (saveRequest r)
  | _ => none

/-! ### Startups -/

section Startup

variable (g : Gateway) (s : Sources)

/-- A startup fails with an error about the connection, or all is there afterwards. What has been
there stays. -/
theorem startup_cases :
    (∃ f, (g.startup s).result = .error (g.notConnected f) ∧
      ((g.startup s).gateway = g ∨ (g.startup s).gateway = { g with client := true })) ∨
    (g.startup s).result = .ok () ∧
      (g.startup s).gateway = { g with client := true, api := true } := by
  have hconnected (loads : List Load) (event : Event) :
      (∃ f, (g.connected s loads event).result = .error (g.notConnected f) ∧
        ((g.connected s loads event).gateway = g ∨
          (g.connected s loads event).gateway = { g with client := true })) ∨
      (g.connected s loads event).result = .ok () ∧
        (g.connected s loads event).gateway = { g with client := true, api := true } := by
    unfold connected
    dsimp only
    split
    · next f _ => exact Or.inl ⟨f.message, rfl, Or.inr rfl⟩
    · exact Or.inr ⟨rfl, rfl⟩
  unfold startup
  dsimp only
  split
  · split
    · next f _ => exact Or.inl ⟨f.message, rfl, Or.inl rfl⟩
    · exact hconnected _ _
  · split
    · exact hconnected _ _
    · split
      · next f _ => exact Or.inl ⟨f.message, rfl, Or.inl rfl⟩
      · exact hconnected _ _
    · next f _ _ => exact Or.inl ⟨f.message, rfl, Or.inl rfl⟩

theorem config_startup : (g.startup s).gateway.config = g.config := by
  rcases startup_cases g s with ⟨f, -, h | h⟩ | ⟨-, h⟩ <;> rw [h]

theorem api_startup :
    (g.startup s).gateway.api = true ↔ (g.startup s).result = .ok () ∨ g.api = true := by
  rcases startup_cases g s with ⟨f, hresult, h | h⟩ | ⟨hresult, h⟩
  · simp [hresult, h]
  · simp [hresult, h]
  · simp [hresult, h]

/-- A named file is the only source. Without one the file at the usual place counts where there is
no cluster around. -/
theorem loads_startup :
    (∀ file, g.config.kubeconfig = some file →
      (g.startup s).loads.filter (· ≠ .api) = [.kubeconfig (some file) g.config.context]) ∧
    (g.config.kubeconfig = none →
      ((∃ text, s.incluster = some (.unconfigured text)) →
        (g.startup s).loads.filter (· ≠ .api) =
          [.incluster, .kubeconfig none g.config.context]) ∧
      ((∀ text, s.incluster ≠ some (.unconfigured text)) →
        (g.startup s).loads.filter (· ≠ .api) = [.incluster])) := by
  have hconnected (loads : List Load) (event : Event) :
      (g.connected s loads event).loads = loads ++ [.api] := by
    unfold connected
    dsimp only
    split <;> rfl
  refine ⟨fun file hfile => ?_, fun hnone => ⟨?_, fun hinside => ?_⟩⟩
  · simp only [startup, hfile]
    cases s.kubeconfig with
    | some f => simp [failed]
    | none => simp [hconnected]
  · rintro ⟨text, htext⟩
    simp only [startup, hnone, htext]
    cases s.kubeconfig with
    | some f => simp [failed]
    | none => simp [hconnected]
  · simp only [startup, hnone]
    cases hincluster : s.incluster with
    | none => simp [hconnected]
    | some f =>
      cases f with
      | unconfigured text => exact absurd hincluster (hinside text)
      | raised e => simp [failed]

end Startup

/-! ### One task -/

section Turn

variable {g : Gateway} {σ : Session}

@[simp]
theorem gateway_ofWork (w : Work Outcome) : (Turn.ofWork g w σ).gateway = g := by
  unfold Turn.ofWork
  split <;> rfl

/-- Only a startup and a shutdown change what there is to make requests with. -/
theorem api_turn (t : Task) : (g.turn σ t).gateway.api = true ↔
    (∃ s, t = .startup s ∧ (g.startup s).result = .ok ()) ∨ t ≠ .shutdown ∧ g.api = true := by
  cases t with
  | startup s => simp [turn, api_startup]
  | shutdown => simp [turn, shutdown]
  | fetch | save | health => simp [turn]

theorem client_turn (h : g.api = true → g.client = true) (t : Task)
    (hapi : (g.turn σ t).gateway.api = true) : (g.turn σ t).gateway.client = true := by
  cases t with
  | startup s =>
    have hgateway : (g.turn σ (.startup s)).gateway = (g.startup s).gateway := rfl
    rw [hgateway] at hapi ⊢
    rcases startup_cases g s with ⟨f, -, heq | heq⟩ | ⟨-, heq⟩
    · rw [heq] at hapi ⊢
      exact h hapi
    · rw [heq]
    · rw [heq]
  | shutdown => cases hapi
  | fetch | save | health =>
    simp only [turn, gateway_ofWork] at hapi ⊢
    exact h hapi

theorem config_turn (t : Task) : (g.turn σ t).gateway.config = g.config := by
  cases t with
  | startup s => exact config_startup g s
  | shutdown => rfl
  | fetch | save | health => simp only [turn, gateway_ofWork]

theorem turn_of_not_api {t : Task} {req : Request} (ht : t.request? g.config = some req)
    (hapi : g.api = false) :
    g.turn σ t = ⟨.error (.store (g.notConnected notStarted)), g, σ⟩ := by
  have hfetch : g.fetch σ = .error (.store (g.notConnected notStarted)) σ := by
    rw [fetch, ensureStarted_of_not_api hapi]
    rfl
  have hsave (r : Resource) : g.save r σ = .error (.store (g.notConnected notStarted)) σ := by
    rw [save, ensureStarted_of_not_api hapi]
    rfl
  cases t with
  | fetch => simp only [turn, Turn.ofWork, Work.bind_of_error hfetch]
  | save r => simp only [turn, Turn.ofWork, Work.bind_of_error (hsave r)]
  | startup | shutdown | health => cases ht

theorem ofWork_result {α : Type} {w : Work α} {x : Except Trouble α} {σ' : Session}
    (f : α → Outcome) (h : w σ = Work.result x σ') :
    Turn.ofWork g (do pure (f (← w))) σ = ⟨x.map f, g, σ'⟩ := by
  cases x with
  | ok a => simp only [Turn.ofWork, Work.bind_of_ok h]; rfl
  | error t => simp only [Turn.ofWork, Work.bind_of_error h]; rfl

/-- The one request is made. An exception that answers it is an error of the store, unless it says
that there is no object. -/
theorem turn_of_api {t : Task} {req : Request} (ht : t.request? g.config = some req)
    (hapi : g.api = true) :
    (g.turn σ t).session.requests = σ.requests ++ [req] ∧
      ∀ e, σ.answerTo req = .error e → (∃ a, (g.turn σ t).result = .ok a) ∨
        ∃ x, (g.turn σ t).result = .error (.store x) := by
  cases t with
  | fetch =>
    obtain rfl := Option.some.inj ht
    obtain ⟨answer, σ', hasked, hfetch⟩ := fetch_asked hapi σ
    rw [turn, ofWork_result .fetched hfetch]
    refine ⟨hasked.requests, fun e he => ?_⟩
    rw [hasked.answer_eq, he]
    unfold fetched readObject
    split
    · next h => cases h
    · exact Or.inl ⟨_, rfl⟩
    · exact Or.inr ⟨_, rfl⟩
  | save r =>
    obtain rfl := Option.some.inj ht
    obtain ⟨answer, σ', hasked, hsave⟩ := save_asked hapi r σ
    rw [turn, ofWork_result .saved hsave]
    refine ⟨hasked.requests, fun e he => ?_⟩
    rw [hasked.answer_eq, he]
    exact Or.inr ⟨_, rfl⟩
  | startup | shutdown | health => cases ht

end Turn

/-! ### A life -/

section Life

variable {config : Config} {σ : Session} {ts : List Task}

theorem life_concat (config : Config) (σ : Session) (ts : List Task) (t : Task) :
    life config σ (ts ++ [t]) = advance (life config σ ts) t := by
  rw [life, List.foldl_append]
  rfl

theorem not_live_nil : ¬ Live config σ [] := by
  rintro ⟨before, s, later, h, -⟩
  exact List.append_ne_nil_of_right_ne_nil before (List.cons_ne_nil _ _) h.symm

theorem live_concat (t : Task) : Live config σ (ts ++ [t]) ↔
    (∃ s, t = .startup s ∧ ((life config σ ts).1.startup s).result = .ok ()) ∨
      t ≠ .shutdown ∧ Live config σ ts := by
  constructor
  · rintro ⟨before, s, later, hts, hlater, hs⟩
    rcases List.eq_nil_or_concat' later with rfl | ⟨later, t', rfl⟩
    · obtain ⟨rfl, ht⟩ := List.append_inj' hts rfl
      exact Or.inl ⟨s, List.singleton_inj.mp ht, hs⟩
    · rw [← List.cons_append, ← List.append_assoc] at hts
      obtain ⟨rfl, ht⟩ := List.append_inj' hts rfl
      obtain rfl := List.singleton_inj.mp ht
      rw [List.mem_append, not_or, List.mem_singleton] at hlater
      exact Or.inr ⟨Ne.symm hlater.2, before, s, later, rfl, hlater.1, hs⟩
  · rintro (⟨s, rfl, hs⟩ | ⟨ht, before, s, later, rfl, hlater, hs⟩)
    · exact ⟨ts, s, [], rfl, List.not_mem_nil, hs⟩
    · refine ⟨before, s, later ++ [t], by simp, ?_, hs⟩
      simp [hlater, Ne.symm ht]

/-- What a gateway has is settled by its past: the configuration stays, requests can be made if it
is live, and then the library of requests is there. -/
theorem settled_life (config : Config) (σ : Session) (ts : List Task) :
    (life config σ ts).1.config = config ∧
      ((life config σ ts).1.api = true ↔ Live config σ ts) ∧
      ((life config σ ts).1.api = true → (life config σ ts).1.client = true) := by
  induction ts using List.reverseRecOn with
  | nil => exact ⟨rfl, iff_of_false Bool.false_ne_true not_live_nil, nofun⟩
  | append_singleton ts t ih =>
    obtain ⟨hconfig, hlive, hclient⟩ := ih
    rw [life_concat, live_concat, ← hlive]
    exact ⟨(config_turn t).trans hconfig, api_turn t, client_turn hclient t⟩

end Life

/-- Whatever a gateway has been asked to do: a fetch and a save make their request if some startup
has succeeded since the last shutdown, and otherwise they fail to connect and do nothing. Whenever
requests can be made the library of requests is there, so that each exception from one is told as an
error of the store, or that there is no object. A startup that fails does so to connect, and leaves
the gateway as able to make requests as it was; it tries a named file alone, or else the file at the
usual place exactly if it has found no cluster around. -/
theorem live_of_tasks (config : Config) (σ : Session) (ts : List Task) :
    let g := (life config σ ts).1
    let τ := (life config σ ts).2
    (g.api = true → g.client = true) ∧
    (∀ t req, t.request? config = some req →
      ((g.turn τ t).session.requests = τ.requests ++ [req] ↔ Live config σ ts) ∧
      (Live config σ ts → ∀ e, τ.answerTo req = .error e →
        (∃ a, (g.turn τ t).result = .ok a) ∨ ∃ x, (g.turn τ t).result = .error (.store x)) ∧
      (¬ Live config σ ts → (g.turn τ t).session = τ ∧
        (g.turn τ t).result = .error (.store (.persistence {
          operation := "connect", name := config.name, ns := config.ns
          reason := "Gateway not initialized - call startup() first" })))) ∧
    ∀ s, (∀ x, (g.startup s).result = .error x →
        (∃ reason, x = .persistence {
          operation := "connect", name := config.name, ns := config.ns, reason }) ∧
        (g.startup s).gateway.api = g.api) ∧
      (∀ file, config.kubeconfig = some file →
        (g.startup s).loads.filter (· ≠ .api) = [.kubeconfig (some file) config.context]) ∧
      (config.kubeconfig = none →
        ((∃ text, s.incluster = some (.unconfigured text)) →
          (g.startup s).loads.filter (· ≠ .api) =
            [.incluster, .kubeconfig none config.context]) ∧
        ((∀ text, s.incluster ≠ some (.unconfigured text)) →
          (g.startup s).loads.filter (· ≠ .api) = [.incluster])) := by
  intro g τ
  obtain ⟨hconfig, hlive, hclient⟩ := settled_life config σ ts
  have hg : g.config = config := hconfig
  refine ⟨hclient, fun t req ht => ?_, fun s => ⟨fun x hx => ?_, ?_⟩⟩
  · rw [← hg] at ht
    by_cases hlived : Live config σ ts
    · obtain ⟨hrequests, hanswer⟩ := turn_of_api (σ := τ) ht (hlive.mpr hlived)
      exact ⟨iff_of_true hrequests hlived, fun _ => hanswer, fun h => absurd hlived h⟩
    · have hapi : g.api = false := Bool.eq_false_iff.mpr (mt hlive.mp hlived)
      rw [turn_of_not_api ht hapi, notConnected, hg]
      exact ⟨iff_of_false (by simp) hlived, fun h => absurd h hlived, fun _ => ⟨rfl, rfl⟩⟩
  · rcases startup_cases g s with ⟨f, hresult, hgateway⟩ | ⟨hresult, -⟩
    · rw [hresult] at hx
      obtain rfl := Except.error.inj hx
      rw [notConnected, hg]
      refine ⟨⟨f, rfl⟩, ?_⟩
      rcases hgateway with h | h <;> rw [h]
    · rw [hresult] at hx
      cases hx
  · rw [← hg]
    exact loads_startup g s

/-- Two startups that fail around one that succeeds. Requests can be made until a shutdown. -/
theorem live_of_tasks_restart :
    let broken : Sources := {
      incluster := some (.unconfigured "no cluster")
      api := some (.raised (.other "OSError" none)) }
    let ts : List Task := [.startup broken, .startup {}, .startup broken]
    let x := life {} {} ts
    let y := life {} {} (ts ++ [.shutdown])
    (x.1.turn x.2 .fetch).session.requests = x.2.requests ++ [.read "kube-system" "aws-auth"] ∧
      (∃ e, (x.1.startup broken).result = .error e) ∧ (x.1.startup broken).gateway.api = x.1.api ∧
      (x.1.startup broken).loads.filter (· ≠ .api) = [.incluster, .kubeconfig none none] ∧
      (y.1.turn y.2 .fetch).session = y.2 := by
  intro broken ts x y
  have hlive : Live {} {} ts := ⟨[.startup broken], {}, [.startup broken], rfl, by simp, rfl⟩
  have hshut : ¬ Live {} {} (ts ++ [.shutdown]) := by simp [live_concat]
  obtain ⟨-, hrequest, hstartup⟩ := live_of_tasks {} {} ts
  obtain ⟨-, hrefused, -⟩ := live_of_tasks {} {} (ts ++ [.shutdown])
  obtain ⟨hfails, -, hloads⟩ := hstartup broken
  refine ⟨(hrequest .fetch _ rfl).1.mpr hlive, ⟨_, rfl⟩, (hfails _ rfl).2, ?_, ?_⟩
  · exact (hloads rfl).1 ⟨_, rfl⟩
  · exact ((hrefused .fetch _ rfl).2.2 hshut).1

end AuthMap.Gateway
