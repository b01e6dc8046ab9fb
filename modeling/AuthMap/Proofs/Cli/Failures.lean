import AuthMap.Proofs.Cli.ExitCode

/-! How a request that fails is told: by the error of the store that it becomes, and by the exit
code of a run that it ends. -/

namespace AuthMap

namespace Raised

/-- The cluster has answered that the object is not there. -/
def Absent (e : Raised) : Prop := ∃ reason, e = .api (some 404) reason

/-- The cluster has answered that the request is forbidden. -/
def Denied (e : Raised) : Prop := ∃ reason, e = .api (some 403) reason

theorem denied_iff {e : Raised} : e.Denied ↔ e.status = some 403 := by
  cases e with
  | api status reason =>
    constructor
    · rintro ⟨reason', h⟩
      cases h
      rfl
    · rintro h
      obtain rfl : status = some 403 := h
      exact ⟨reason, rfl⟩
  | other => exact iff_of_false (fun ⟨_, h⟩ => by cases h) nofun

end Raised

/-- The error says what has been tried on which object, and how the cluster has answered. It has a
class of its own where that was forbidden. -/
def StoreError.Tells (x : StoreError) (operation name ns : String) (e : Raised) : Prop :=
  ∃ f : Failure, f.operation = operation ∧ f.name = name ∧ f.ns = ns ∧
    (∀ status reason, e = .api status reason → f.status = status) ∧
    (∀ kind message status reason, e = .other kind message status reason → f.status = none) ∧
    (e.Denied ∧ x = .accessDenied f ∨ ¬ e.Denied ∧ x = .persistence f)

namespace Gateway

variable {g : Gateway} {σ : Session} {e : Raised} {r : Resource}

theorem tells_reported (operation name ns : String) (e : Raised) :
    (reported operation name ns e).Tells operation name ns e := by
  refine ⟨{ operation, name, ns, reason := e.describe, status := e.status }, rfl, rfl, rfl,
    fun _ _ h => congrArg Raised.status h, fun _ _ _ _ h => congrArg Raised.status h, ?_⟩
  by_cases hdenied : e.Denied
  · exact Or.inl ⟨hdenied, if_pos (Raised.denied_iff.mp hdenied)⟩
  · exact Or.inr ⟨hdenied, if_neg (mt Raised.denied_iff.mpr hdenied)⟩

theorem error_of_result {x : Except Trouble Resource} {t : Trouble} {σ₁ σ' : Session}
    (h : .error t σ₁ = Work.result x σ') : x = .error t := by
  cases x with
  | ok r => cases h
  | error t' =>
    cases h
    rfl

theorem fetched_of_absent (h : e.Absent) : g.fetched (.error e) = .ok g.blank := by
  obtain ⟨reason, rfl⟩ := h
  rfl

theorem fetched_of_not_absent (h : ¬ e.Absent) :
    g.fetched (.error e) = .error (.store (reported "read" g.config.name g.config.ns e)) := by
  unfold fetched readObject
  split
  · next heq => cases heq
  · next reason heq =>
    obtain rfl := Except.error.inj heq
    exact absurd ⟨reason, rfl⟩ h
  · next heq =>
    obtain rfl := Except.error.inj heq
    rfl

theorem fetch_of_error (hapi : g.api = true)
    (h : σ.answerTo (.read g.config.ns g.config.name) = .error e) :
    ∃ σ', σ'.requests = σ.requests ++ [.read g.config.ns g.config.name] ∧
      g.fetch σ = Work.result (g.fetched (.error e)) σ' := by
  obtain ⟨answer, σ', hasked, hfetch⟩ := fetch_asked hapi σ
  rw [hasked.answer_eq, h] at hfetch
  exact ⟨σ', hasked.requests, hfetch⟩

/-- An object that cannot be held is none of the errors of the store. -/
theorem error_of_fetch {σ' : Session} {x : StoreError} (hapi : g.api = true)
    (h : g.fetch σ = .error (.store x) σ') :
    ∃ e, σ.answerTo (.read g.config.ns g.config.name) = .error e ∧ ¬ e.Absent ∧
      x = reported "read" g.config.name g.config.ns e := by
  obtain ⟨answer, σ₁, hasked, hfetch⟩ := fetch_asked hapi σ
  rw [h] at hfetch
  rw [← hasked.answer_eq]
  rcases answer with e | _ | m
  · by_cases habsent : e.Absent
    · rw [fetched_of_absent habsent] at hfetch
      cases hfetch
    · rw [fetched_of_not_absent habsent] at hfetch
      cases hfetch
      exact ⟨e, rfl, habsent, rfl⟩
  · cases hfetch
  · exact absurd (error_of_result hfetch) (Cli.ofConfigMap_ne_store m x)

theorem save_of_error (hapi : g.api = true) (h : σ.answerTo (saveRequest r) = .error e) :
    ∃ σ', σ'.requests = σ.requests ++ [saveRequest r] ∧
      g.save r σ = .error (.store (reported (saveOperation r) r.name r.ns e)) σ' := by
  obtain ⟨answer, σ', hasked, hsave⟩ := save_asked hapi r σ
  rw [hasked.answer_eq, h] at hsave
  exact ⟨σ', hasked.requests, hsave⟩

/-- What has been written and cannot be read back is none of the errors of the store. -/
theorem error_of_save {σ' : Session} {x : StoreError} (hapi : g.api = true)
    (h : g.save r σ = .error (.store x) σ') :
    ∃ e, σ.answerTo (saveRequest r) = .error e ∧
      x = reported (saveOperation r) r.name r.ns e := by
  obtain ⟨answer, σ₁, hasked, hsave⟩ := save_asked hapi r σ
  rw [h] at hsave
  rw [← hasked.answer_eq]
  cases answer with
  | error e =>
    cases hsave
    exact ⟨e, rfl, rfl⟩
  | ok m => exact absurd (error_of_result hsave) (Cli.ofConfigMap_ne_store _ x)

end Gateway

namespace Cli

open Gateway (saveRequest reported)

/-- An exception ends the run of a command: it answers the read, and says more than that there is
nothing to read, or it answers the write. -/
inductive Command.Stops (c : Command) (g : Gateway) (σ : Session) (e : Raised) : Prop where
  | read : σ.answerTo (.read g.config.ns g.config.name) = .error e → ¬ e.Absent → c.Stops g σ e
  | write {r r' : Resource} {a : Answer} {σ₁ σ₂ : Session} : g.fetch σ = .ok r σ₁ →
      c.reading.perform r σ₁ = .ok (a, r') σ₂ → (∀ arn format, c ≠ .get arn format) →
      σ₂.answerTo (saveRequest r') = .error e → c.Stops g σ e

section Stops

variable {g : Gateway} {σ σ' : Session} {c : Command} {r : Resource} {e : Raised} {a : Answer}

theorem finish_of_ne (h : ∀ arn format, c ≠ .get arn format) :
    c.finish g a r = (do
      let _ ← g.save r
      pure (c.text a)) := by
  unfold Command.finish
  split
  · next arn format _ => exact absurd rfl (h arn format)
  · rfl

theorem execute_of_stops (hapi : g.api = true) (h : c.Stops g σ e) :
    ∃ operation name ns σ', c.execute g σ = .error (.store (reported operation name ns e)) σ' := by
  rw [execute_eq_finish]
  cases h with
  | read hanswer hpresent =>
    obtain ⟨σ', -, hfetch⟩ := Gateway.fetch_of_error hapi hanswer
    rw [Gateway.fetched_of_not_absent hpresent] at hfetch
    exact ⟨_, _, _, σ', Work.bind_of_error hfetch⟩
  | @write r r' a σ₁ σ₂ hfetch hperform hwrites hanswer =>
    obtain ⟨σ', -, hsave⟩ := Gateway.save_of_error hapi hanswer
    refine ⟨Gateway.saveOperation r', r'.name, r'.ns, σ', ?_⟩
    rw [Work.bind_of_ok hfetch, Work.bind_of_ok hperform]
    dsimp only
    rw [finish_of_ne hwrites]
    exact Work.bind_of_error hsave

theorem records_of_get {arn : Option Text} {format : Format} {x : (Answer × Data) × List Event}
    (h : (Command.get arn format).reading.effect r = .ok x) : ∃ rs, x.1.1 = .records rs := by
  have hread {y : Except Trouble (List Identity)}
      (h : (do pure ((Answer.records (← y), []), []) : Except Trouble _) = .ok x) :
      ∃ rs, x.1.1 = .records rs := by
    obtain ⟨rs, -, hx⟩ := Except.bind_eq_ok.mp h
    cases hx
    exact ⟨rs, rfl⟩
  unfold Command.reading at h
  split at h
  · exact hread h
  · exact hread h
  · exact hread h
  all_goals contradiction

/-- What has been read ends with an error of the store only where it is written. -/
theorem error_of_finish {r' : Resource} {x : StoreError} {y : (Answer × Data) × List Event}
    (hapi : g.api = true) (heffect : c.reading.effect r = .ok y)
    (h : c.finish g y.1.1 r' σ = .error (.store x) σ') :
    (∀ arn format, c ≠ .get arn format) ∧ ∃ e, σ.answerTo (saveRequest r') = .error e ∧
      x = reported (Gateway.saveOperation r') r'.name r'.ns e := by
  by_cases hwrites : ∀ arn format, c ≠ .get arn format
  · refine ⟨hwrites, ?_⟩
    rw [finish_of_ne hwrites] at h
    cases hsave : g.save r' σ with
    | ok r₁ σ₁ =>
      rw [Work.bind_of_ok hsave] at h
      cases h
    | error t σ₁ =>
      rw [Work.bind_of_error hsave] at h
      cases h
      exact Gateway.error_of_save hapi hsave
  · push Not at hwrites
    obtain ⟨arn, format, rfl⟩ := hwrites
    obtain ⟨rs, hrs⟩ := records_of_get heffect
    rw [hrs] at h
    cases h

/-- An error of the store that ends a run tells of an exception, or comes from no request. -/
theorem stops_of_execute {x : StoreError} (hapi : g.api = true)
    (h : c.execute g σ = .error (.store x) σ') :
    (∃ operation name ns e, c.Stops g σ e ∧ x = reported operation name ns e) ∨
      Trouble.IsOwn (.store x) := by
  rw [execute_eq_finish] at h
  cases hfetch : g.fetch σ with
  | error t σ₁ =>
    rw [Work.bind_of_error hfetch] at h
    cases h
    obtain ⟨e, hanswer, hpresent, rfl⟩ := Gateway.error_of_fetch hapi hfetch
    exact Or.inl ⟨_, _, _, e, .read hanswer hpresent, rfl⟩
  | ok r σ₁ =>
    rw [Work.bind_of_ok hfetch] at h
    cases heffect : c.reading.effect r with
    | error t =>
      rw [perform_bind_of_error heffect] at h
      cases h
      rcases known_reading c r _ heffect with hown | ⟨f, hf⟩
      · exact Or.inr hown
      · cases hf
    | ok y =>
      have hperform := congrFun (c.reading.perform_eq_told r) σ₁
      rw [heffect] at hperform
      rw [Work.bind_of_ok hperform] at h
      obtain ⟨hwrites, e, hanswer, rfl⟩ := error_of_finish hapi heffect h
      exact Or.inl ⟨_, _, _, e, .write hfetch hperform hwrites hanswer, rfl⟩

/-- The exit codes of errors that tell of an exception are those of no other error. -/
theorem exitCode_reported (operation name ns : String) (e : Raised) :
    exitCodeFor (reported operation name ns e) =
      if e.status = some 403 then .accessDenied else .api := by
  unfold reported
  split <;> rfl

end Stops

section Runs

variable {connect : Gateway → Except StoreError Gateway} {config : Config} {level : Level}
  {c : Command} {g : Gateway} {σ : Session}

/-- A code is that of an error of the store, or of no error. -/
theorem exists_error_of_exitCode (hg : connect { config } = .ok g) {code : ExitCode}
    (hsuccess : code ≠ .success) (hgeneral : code ≠ .general)
    (h : (Plan.report connect (.run config level c) σ).1.exitCode = code) :
    ∃ x σ', c.execute g σ = .error (.store x) σ' ∧ exitCodeFor x = code := by
  rw [← connected_of_ok hg]
  cases hrun : c.connected connect config σ with
  | ok text σ' =>
    rw [report_of_ok hrun] at h
    rcases Report.exitCode_ofText_cases text with hcode | hcode
    · exact absurd (h.symm.trans hcode) hsuccess
    · exact absurd (h.symm.trans hcode) hgeneral
  | error t σ' =>
    rw [report_of_error hrun] at h
    cases t with
    | store x => exact ⟨x, σ', rfl, h⟩
    | _ => exact absurd h.symm hgeneral

theorem exitCode_iff (hg : connect { config } = .ok g) (hapi : g.api = true) {code : ExitCode}
    (hcode : code = .accessDenied ∨ code = .api) :
    (Plan.report connect (.run config level c) σ).1.exitCode = code ↔
      ∃ e, c.Stops g σ e ∧ (if e.status = some 403 then .accessDenied else .api) = code := by
  constructor
  · intro h
    obtain ⟨x, σ', hexecute, hx⟩ := exists_error_of_exitCode hg
      (by rcases hcode with rfl | rfl <;> exact nofun)
      (by rcases hcode with rfl | rfl <;> exact nofun) h
    rcases stops_of_execute hapi hexecute with
      ⟨operation, name, ns, e, hstops, rfl⟩ | ⟨x', hx', hown⟩
    · exact ⟨e, hstops, (exitCode_reported operation name ns e).symm.trans hx⟩
    · cases hx'
      rw [hx] at hown
      rcases hcode with rfl | rfl <;> rcases hown with hown | hown <;> cases hown
  · rintro ⟨e, hstops, rfl⟩
    obtain ⟨operation, name, ns, σ', hexecute⟩ := execute_of_stops hapi hstops
    rw [report_of_error ((connected_of_ok hg).trans hexecute)]
    exact exitCode_reported operation name ns e

end Runs

/-- An exception from a request becomes one error of the store, by what it is and what was asked
for. Only a read that finds nothing there does not fail, and gives an empty resource. A run of a
command ends with the code of such an error exactly when an exception ends it. -/
theorem failures_told {g : Gateway} (hapi : g.api = true) (σ : Session) :
    (∀ e, σ.answerTo (.read g.config.ns g.config.name) = .error e →
      ∃ σ', σ'.requests = σ.requests ++ [.read g.config.ns g.config.name] ∧
        (e.Absent ∧ (∃ r, g.fetch σ = .ok r σ' ∧ r = {
            name := g.config.name, ns := g.config.ns, uid := "", labels := g.config.labels }) ∨
          ¬ e.Absent ∧ ∃ x, g.fetch σ = .error (.store x) σ' ∧
            x.Tells "read" g.config.name g.config.ns e)) ∧
      (∀ r e, σ.answerTo (saveRequest r) = .error e →
        ∃ x σ', g.save r σ = .error (.store x) σ' ∧ σ'.requests = σ.requests ++ [saveRequest r] ∧
          x.Tells (if r.uid = "" then "create" else "replace") r.name r.ns e) ∧
      ∀ connect config level (c : Command), connect { config } = .ok g →
        let report := (Plan.report connect (.run config level c) σ).1
        (report.exitCode.code = 4 ↔ ∃ e, c.Stops g σ e ∧ e.Denied) ∧
          (report.exitCode.code = 8 ↔ ∃ e, c.Stops g σ e ∧ ¬ e.Denied) := by
  refine ⟨fun e h => ?_, fun r e h => ?_, fun connect config level c hg => ?_⟩
  · obtain ⟨σ', hrequests, hfetch⟩ := Gateway.fetch_of_error hapi h
    refine ⟨σ', hrequests, ?_⟩
    by_cases habsent : e.Absent
    · rw [Gateway.fetched_of_absent habsent] at hfetch
      exact Or.inl ⟨habsent, _, hfetch, rfl⟩
    · rw [Gateway.fetched_of_not_absent habsent] at hfetch
      exact Or.inr ⟨habsent, _, hfetch, Gateway.tells_reported _ _ _ e⟩
  · obtain ⟨σ', hrequests, hsave⟩ := Gateway.save_of_error hapi h
    have hoperation : Gateway.saveOperation r = if r.uid = "" then "create" else "replace" := by
      by_cases huid : r.uid = "" <;> simp [Gateway.saveOperation, Resource.exists?, huid]
    rw [← hoperation]
    exact ⟨_, σ', hsave, hrequests, Gateway.tells_reported _ _ _ e⟩
  · have hcode (x code : ExitCode) : x.code = code.code ↔ x = code := by
      cases x <;> cases code <;> decide
    constructor
    · rw [show 4 = ExitCode.code .accessDenied from rfl, hcode, exitCode_iff hg hapi (Or.inl rfl)]
      simp [Raised.denied_iff]
    · rw [show 8 = ExitCode.code .api from rfl, hcode, exitCode_iff hg hapi (Or.inr rfl)]
      simp [Raised.denied_iff]

/-- A read is forbidden; another exception has that status only of its own; and an object that has a
UID is not there when it is written. -/
theorem failures_told_forbidden :
    let g : Gateway := { client := true, api := true }
    let code (e : Raised) := ((Plan.report (fun _ => .ok g) (.run {} .warning (.get none .json))
      { failures := [(.read, e)] }).1).exitCode.code
    code (.api (some 403) none) = 4 ∧ code (.other "Timeout" none (some "403") none) = 8 ∧
      ∃ x σ', g.save { uid := "u" } {} = .error (.store x) σ' ∧ σ'.requests.length = 1 ∧
        x.Tells "replace" "aws-auth" "kube-system" Cluster.notFound := by
  intro g code
  have htold := failures_told (show g.api = true from rfl)
  refine ⟨?_, ?_, ?_⟩
  · obtain ⟨hdenied, -⟩ := (htold { failures := [(.read, .api (some 403) none)] }).2.2
      (fun _ => .ok g) {} .warning (.get none .json) rfl
    exact hdenied.mpr ⟨_, .read rfl (fun ⟨_, h⟩ => by cases h), none, rfl⟩
  · obtain ⟨-, hother⟩ := (htold
      { failures := [(.read, .other "Timeout" none (some "403") none)] }).2.2
      (fun _ => .ok g) {} .warning (.get none .json) rfl
    exact hother.mpr ⟨_, .read rfl (fun ⟨_, h⟩ => by cases h), fun ⟨_, h⟩ => by cases h⟩
  · obtain ⟨x, σ', hsave, hrequests, hx⟩ := (htold {}).2.1 { uid := "u" } Cluster.notFound rfl
    exact ⟨x, σ', hsave, congrArg List.length hrequests, hx⟩

end Cli

end AuthMap
