import AuthMap.Proofs.Cli.Errors

/-! How a run of the command line ends. An error of the store is reported with its exit code. The
fault of a scalar without a value, of an object that cannot be read, and of a home that is not known
end a run without a report. -/

namespace AuthMap

open Yaml (ValueFault)

/-! ### Commands -/

namespace Cli

/-- The call that a command makes on what has been fetched. -/
def Command.reading (c : Command) : Call :=
  match c with
  | .get none _ | .get (some []) _ => .identities
  | .get (some arn) _ => .find (.text arn)
  | .create arn username groups => .addIdentity (.text arn) username groups
  | .delete arn all => .removeIdentity (.text arn) all
  | .addAccount account => .addAccount account
  | .removeAccount account => .removeAccount account

/-- Of the texts that a command reads, the first that is no list of entries ends at a scalar without
a value. Nothing is read for a principal that is not accepted. -/
def Command.Meets (c : Command) (r : Resource) (f : ValueFault) : Prop :=
  match c with
  | .get _ _ | .delete _ _ => Half.identities.Unvalued r f
  | .create arn _ _ => Arn.kindOf arn ≠ .unknown ∧ Half.identities.Unvalued r f
  | .addAccount _ | .removeAccount _ => Half.accounts.Unvalued r f

theorem known_reading (c : Command) (r : Resource) : Known (c.reading.effect r) := by
  have hidentities : Known (Call.effect .identities r) :=
    r.known_identities.bind fun _ => .pure _
  cases c with
  | get arn format =>
    unfold Command.reading
    split
    · exact hidentities
    · exact hidentities
    · refine Known.bind ?_ fun _ => .pure _
      apply r.known_identitySnapshot.bind
      intro held
      exact .lift fun e => isOwn_of_find
    all_goals contradiction
  | create arn username groups =>
    apply (Known.lift fun e => isOwn_of_newIdentity).bind
    intro record
    apply r.known_identitySnapshot.bind
    intro held
    exact (Known.lift fun e => isOwn_of_withRecords).bind fun _ => .pure _
  | delete arn all =>
    apply r.known_identitySnapshot.bind
    intro held
    exact (Known.lift fun e => isOwn_of_removeIdentity).bind fun _ => .pure _
  | addAccount account => exact r.known_accounts.bind fun _ => .pure _
  | removeAccount account =>
    apply r.known_accounts.bind
    intro held
    exact (Known.lift fun e => isOwn_of_removeAccount).bind fun _ => .pure _

theorem bind_eq_value_iff {α β : Type} {x : Except Trouble α} {g : α → Except Trouble β}
    {f : ValueFault} (hg : ∀ a, g a ≠ .error (.value f)) :
    (x >>= g) = .error (.value f) ↔ x = .error (.value f) := by
  rw [Except.bind_eq_error]
  constructor
  · rintro (h | ⟨a, -, h⟩)
    · exact h
    · exact absurd h (hg a)
  · exact Or.inl

theorem lift_ne_value {α : Type} (x : Except StoreError α) (f : ValueFault) :
    StoreError.lift x ≠ .error (.value f) := by
  intro h
  obtain ⟨e, -, he⟩ := StoreError.lift_eq_error.mp h
  cases he

/-- An edit of the store does not come up with the fault of a scalar by itself. -/
theorem edit_eq_value_iff {α β γ : Type} {x : Except Trouble α} {edit : α → Except StoreError β}
    {g : α → β → γ} {f : ValueFault} : (do
      let a ← x
      let b ← StoreError.lift (edit a)
      pure (g a b)) = .error (.value f) ↔ x = .error (.value f) := by
  apply bind_eq_value_iff
  intro a h
  exact lift_ne_value (edit a) f ((bind_eq_value_iff nofun).mp h)

theorem reading_eq_value_iff {c : Command} {r : Resource} {f : ValueFault} :
    c.reading.effect r = .error (.value f) ↔ c.Meets r f := by
  have hsnapshot : r.identitySnapshot = .error (.value f) ↔ Half.identities.Unvalued r f :=
    Resource.identitySnapshot_eq_error.trans Resource.identities_eq_value_iff
  have hidentities : Call.effect .identities r = .error (.value f) ↔
      Half.identities.Unvalued r f :=
    (bind_eq_value_iff nofun).trans Resource.identities_eq_value_iff
  cases c with
  | get arn format =>
    unfold Command.reading
    split
    · exact hidentities
    · exact hidentities
    · exact (bind_eq_value_iff nofun).trans
        ((bind_eq_value_iff fun held => lift_ne_value _ f).trans hsnapshot)
    all_goals contradiction
  | create arn username groups =>
    have hread (record : Identity) : (do
        let held ← r.identitySnapshot
        let s ← StoreError.lift (held.addIdentity record)
        pure ((Answer.record record, identityTexts s.roles s.users),
          [Resource.identityAdded record])) = .error (.value f) ↔ Half.identities.Unvalued r f :=
      edit_eq_value_iff.trans hsnapshot
    unfold Command.reading Call.effect
    dsimp only
    by_cases hkind : Arn.kindOf arn = .unknown
    · obtain ⟨e, he, -⟩ := newIdentity_of_unknown hkind username groups
      rw [he]
      exact iff_of_false nofun fun h => h.1 hkind
    · rw [newIdentity_of_kind _ _ hkind]
      exact (hread _).trans (and_iff_right hkind).symm
  | delete arn all =>
    exact edit_eq_value_iff.trans hsnapshot
  | addAccount account =>
    exact (bind_eq_value_iff nofun).trans Resource.accounts_eq_value_iff
  | removeAccount account =>
    exact edit_eq_value_iff.trans Resource.accounts_eq_value_iff

/-- What is left to do when the call has been answered. -/
def Command.finish (c : Command) (g : Gateway) (a : Answer) (r : Resource) : Work Text :=
  match c, a with
  | .get _ format, .records rs => pure (listing format rs)
  | c, a => do
    let _ ← g.save r
    pure (c.text a)

theorem execute_eq_finish (c : Command) (g : Gateway) :
    c.execute g = (do
      let (a, r) ← c.reading.perform (← g.fetch)
      c.finish g a r) := by
  cases c with
  | get arn format =>
    simp only [Command.execute, Command.reading, Command.selected]
    split
    all_goals
      simp only [Call.perform, bind_assoc, pure_bind]
      rfl
  | create | delete | addAccount | removeAccount =>
    simp only [Command.execute, Command.reading, Call.perform, Command.finish, bind_assoc,
      pure_bind]
    rfl

section Execution

variable {g : Gateway} {σ σ' : Session} {c : Command} {r : Resource} {t : Trouble}

/-- The read is made first, so that what it gives does not depend on the command. -/
theorem execute_of_fetched (hapi : g.api = true) (c : Command) (σ : Session) :
    ∃ σ₁, σ.Untouched σ₁ ∧
      match g.fetched (σ.answerTo (.read g.config.ns g.config.name)) with
      | .error t => c.execute g σ = .error t σ₁
      | .ok r => g.Fetches σ.cluster r ∧ c.execute g σ = (do
          let (a, r) ← c.reading.perform r
          c.finish g a r) σ₁ := by
  obtain ⟨answer, σ₁, hasked, hfetch⟩ := Gateway.fetch_asked hapi σ
  refine ⟨σ₁, hasked.untouched_of_read, ?_⟩
  rw [← hasked.answer_eq, execute_eq_finish]
  cases hx : g.fetched answer with
  | error t =>
    rw [hx] at hfetch
    exact Work.bind_of_error hfetch
  | ok r =>
    rw [hx] at hfetch
    exact ⟨Gateway.fetches_of_asked hasked hx, Work.bind_of_ok hfetch⟩

theorem perform_bind_of_error (h : c.reading.effect r = .error t) (σ : Session) :
    (do
      let (a, r) ← c.reading.perform r
      c.finish g a r : Work Text) σ = .error t σ := by
  have hperform := congrFun (c.reading.perform_eq_told r) σ
  rw [h] at hperform
  exact Work.bind_of_error hperform

theorem isListed_of_finish (hapi : g.api = true) (hr : r.Backed σ.cluster) {a : Answer}
    (h : c.finish g a r σ = .error t σ') : t.IsListed := by
  have hsave (text : Text) (h : (do
      let _ ← g.save r
      pure text : Work Text) σ = .error t σ') : t.IsListed := by
    cases hs : g.save r σ with
    | ok r' σ₁ =>
      rw [Work.bind_of_ok hs] at h
      cases h
    | error t' σ₁ =>
      rw [Work.bind_of_error hs] at h
      cases h
      exact Gateway.isListed_of_save hapi hr hs
  unfold Command.finish at h
  split at h
  · cases h
  · exact hsave _ h

/-- When the texts have been read and the call has been answered, nothing but a listed error can
come up. -/
theorem isListed_of_perform_bind (hapi : g.api = true) (hσ : r.Backed σ.cluster)
    {e : (Answer × Data) × List Event} (he : c.reading.effect r = .ok e) (h : (do
      let (a, r) ← c.reading.perform r
      c.finish g a r : Work Text) σ = .error t σ') : t.IsListed := by
  have hperform := congrFun (c.reading.perform_eq_told r) σ
  rw [he] at hperform
  rw [Work.bind_of_ok hperform] at h
  have hbacked : (r.withData e.1.2).Backed (σ.logged e.2).cluster := hσ
  exact isListed_of_finish hapi hbacked h

end Execution

/-- What ends a command without a report: the object that is read is none that can be held, or the
command meets a scalar without a value in its texts. -/
def Command.Escapes (c : Command) (config : Config) (σ : Session) (t : Trouble) : Prop :=
  ∃ m, σ.answerTo (.read config.ns config.name) = .ok (some m) ∧
    (Resource.ofConfigMap m = .error t ∨
      ∃ r f, Resource.ofConfigMap m = .ok r ∧ t = .value f ∧ c.Meets r f)

section Escapes

variable {g : Gateway} {σ σ' : Session} {c : Command} {t : Trouble}

theorem not_meets_blank (c : Command) (g : Gateway) (f : ValueFault) : ¬ c.Meets g.blank f := by
  cases c with
  | get | delete => exact not_unvalued_blank g .identities f
  | create => exact fun h => not_unvalued_blank g .identities f h.2
  | addAccount | removeAccount => exact not_unvalued_blank g .accounts f

theorem execute_of_escapes (hapi : g.api = true) (h : c.Escapes g.config σ t) :
    ∃ σ', c.execute g σ = .error t σ' := by
  obtain ⟨m, hanswer, h⟩ := h
  obtain ⟨σ₁, -, hexecute⟩ := execute_of_fetched hapi c σ
  have hfetched : g.fetched (.ok (some m)) = Resource.ofConfigMap m := rfl
  rw [hanswer, hfetched] at hexecute
  rcases h with herror | ⟨r, f, hr, rfl, hmeets⟩
  · rw [herror] at hexecute
    exact ⟨σ₁, hexecute⟩
  · rw [hr] at hexecute
    obtain ⟨-, hexecute⟩ := hexecute
    exact ⟨σ₁, hexecute.trans (perform_bind_of_error (reading_eq_value_iff.mpr hmeets) σ₁)⟩

theorem isListed_or_escapes_of_execute (hapi : g.api = true) (hσ : σ.cluster.Filed)
    (h : c.execute g σ = .error t σ') : t.IsListed ∨ c.Escapes g.config σ t := by
  obtain ⟨σ₁, huntouched, hexecute⟩ := execute_of_fetched hapi c σ
  have hfetched := g.fetched_cases (σ.answerTo (.read g.config.ns g.config.name))
  cases hx : g.fetched (σ.answerTo (.read g.config.ns g.config.name)) with
  | error t' =>
    rw [hx] at hexecute hfetched
    rw [h] at hexecute
    cases hexecute
    rcases hfetched with ⟨t'', ht, hlisted⟩ | hblank | ⟨m, hm⟩
    · cases ht
      exact Or.inl hlisted
    · cases hblank
    · rw [hm] at hx
      exact Or.inr ⟨m, hm, Or.inl hx⟩
  | ok r =>
    rw [hx] at hexecute hfetched
    obtain ⟨hfetches, hexecute⟩ := hexecute
    rw [h] at hexecute
    cases he : c.reading.effect r with
    | ok e =>
      have hbacked : r.Backed σ₁.cluster := by
        rw [huntouched.cluster]
        exact hfetches.backed hσ
      exact Or.inl (isListed_of_perform_bind hapi hbacked he hexecute.symm)
    | error t' =>
      rw [perform_bind_of_error he] at hexecute
      cases hexecute
      rcases known_reading c r t he with hown | ⟨f, rfl⟩
      · exact Or.inl hown.isListed
      have hmeets := reading_eq_value_iff.mp he
      rcases hfetched with ⟨t', ht, -⟩ | hblank | ⟨m, hm⟩
      · cases ht
      · obtain rfl := Except.ok.inj hblank
        exact absurd hmeets (not_meets_blank c g f)
      · rw [hm] at hx
        exact Or.inr ⟨m, hm, Or.inr ⟨r, f, hx, rfl, hmeets⟩⟩

end Escapes

/-! ### Configurations -/

theorem ofFields_eq_error {homes : Homes} {fields : List (String × Json)} {t : Trouble}
    (h : Config.ofFields homes fields = .error t) :
    (∃ fs, t = .invalid fs) ∨ t = .homeless ∧ Config.isHomeless homes fields = true := by
  unfold Config.ofFields at h
  split at h
  · next hhome =>
    cases h
    exact Or.inr ⟨rfl, hhome⟩
  · cases hc : Config.checkFields homes fields with
    | ok config =>
      rw [hc] at h
      cases h
    | bad fs =>
      rw [hc] at h
      cases h
      exact Or.inl ⟨fs, rfl⟩

theorem ofFields_of_homeless {homes : Homes} {fields : List (String × Json)}
    (h : Config.isHomeless homes fields = true) :
    Config.ofFields homes fields = .error .homeless := if_pos h

/-- The path of the file to connect with starts at an unknown home: that of the environment, or the
one that counts when the options of the command line are put over it. -/
def Plan.HasUnknownHome (w : Surroundings) (overrides : List (String × Json)) : Prop :=
  Config.isHomeless w.homes (Config.envFields w.env) = true ∨
    ∃ base, Config.ofEnv w.homes w.env = .ok base ∧
      Config.isHomeless w.homes (setFields base.fields overrides) = true

section Configure

variable {w : Surroundings} {overrides : List (String × Json)} {args : List Text} {t : Trouble}

theorem configure_eq_error (h : Plan.configure w overrides = .error t) :
    (∃ fs, t = .invalid fs) ∨ t = .homeless ∧ Plan.HasUnknownHome w overrides := by
  rcases Except.bind_eq_error.mp h with h | ⟨base, hbase, h⟩
  · exact (ofFields_eq_error h).imp id fun ⟨ht, hhome⟩ => ⟨ht, Or.inl hhome⟩
  · exact (ofFields_eq_error h).imp id fun ⟨ht, hhome⟩ => ⟨ht, Or.inr ⟨base, hbase, hhome⟩⟩

theorem configure_of_hasUnknownHome (h : Plan.HasUnknownHome w overrides) :
    Plan.configure w overrides = .error .homeless := by
  apply Except.bind_eq_error.mpr
  rcases h with h | ⟨base, hbase, h⟩
  · exact Or.inl (ofFields_of_homeless h)
  · exact Or.inr ⟨base, hbase, ofFields_of_homeless h⟩

/-- A command is named, and the path of the file to connect with starts at an unknown home. -/
def Plan.Homeless (w : Surroundings) (args : List Text) : Prop :=
  ∃ g command, ask Plan.groupOptions false args (Plan.readGroup w) = .run g ∧
    Command.lookup? g.name = some command ∧ Plan.HasUnknownHome w g.overrides

theorem unknownCommand_ne_unconfigured (name : Text) (args : List Text) (t : Trouble) :
    Plan.unknownCommand name args ≠ .unconfigured t := by
  unfold Plan.unknownCommand
  split
  · split <;> exact nofun
  · exact nofun

theorem ofArgs_of_homeless (h : Plan.Homeless w args) :
    Plan.ofArgs w args = .unconfigured .homeless := by
  obtain ⟨g, command, hask, hlookup, hhome⟩ := h
  simp only [Plan.ofArgs, hask, Plan.ofGroup, hlookup, configure_of_hasUnknownHome hhome]

theorem ofArgs_eq_unconfigured (h : Plan.ofArgs w args = .unconfigured t) :
    (∃ fs, t = .invalid fs) ∨ t = .homeless ∧ Plan.Homeless w args := by
  unfold Plan.ofArgs at h
  split at h
  · cases h
  · cases h
  · cases h
  · next g hask =>
    unfold Plan.ofGroup at h
    split at h
    · exact absurd h (unknownCommand_ne_unconfigured _ _ _)
    · next specs read hlookup =>
      split at h
      · next t' hconfigure =>
        cases h
        exact (configure_eq_error hconfigure).imp id fun ⟨ht, hhome⟩ =>
          ⟨ht, g, _, hask, hlookup, hhome⟩
      · split at h <;> cases h

end Configure

/-! ### Runs -/

/-- A report without a cause of its own gives one of the codes that are meant. -/
def Report.IsSound (report : Report) : Prop :=
  report.escaped = none ∧ report.exitCode ≠ .general ∨
    (∃ t, report.escaped = some t) ∧ report.exitCode = .general

theorem code_mem_iff {report : Report} (h : report.IsSound) :
    report.exitCode.code ∈ [0, 2, 3, 4, 5, 8] ↔ report.escaped = none := by
  rcases h with ⟨hescaped, hcode⟩ | ⟨⟨t, hescaped⟩, hcode⟩
  · refine iff_of_true ?_ hescaped
    cases hexit : report.exitCode <;> first | decide | exact absurd hexit hcode
  · rw [hescaped, hcode]
    exact iff_of_false (by decide) nofun

theorem ofConfigMap_ne_store (m : ConfigMap) (e : StoreError) :
    Resource.ofConfigMap m ≠ .error (.store e) := by
  have hshape {α : Type} (x : Except ShapeFault α) : ShapeFault.lift x ≠ .error (.store e) := by
    cases x <;> exact nofun
  have hchecked {α : Type} (x : Checked α) : x.lift ≠ .error (.store e) := by
    cases x <;> exact nofun
  intro h
  unfold Resource.ofConfigMap at h
  simp only [Except.bind_eq_error, hshape, hchecked, false_or, and_false, exists_false] at h

theorem Command.Escapes.ne_store {c : Command} {config : Config} {σ : Session} {t : Trouble}
    (h : c.Escapes config σ t) (e : StoreError) : t ≠ .store e := by
  rintro rfl
  obtain ⟨m, -, h | ⟨r, f, -, hf, -⟩⟩ := h
  · exact ofConfigMap_ne_store m e h
  · cases hf

theorem ofTrouble_of_ne_store {t : Trouble} (h : ∀ e, t ≠ .store e) :
    Report.ofTrouble t = { exitCode := .general, escaped := some t } := by
  cases t with
  | store e => exact absurd rfl (h e)
  | _ => rfl

theorem isSound_ofTrouble {t : Trouble} (h : t.IsListed) :
    (Report.ofTrouble t).escaped = none ∧ (Report.ofTrouble t).exitCode ≠ .general := by
  obtain ⟨e, rfl, he⟩ := h
  exact ⟨rfl, he⟩

theorem isSound_ofText (text : Text) : (Report.ofText text).IsSound := by
  by_cases hwhole : text.IsWhole
  · obtain ⟨s, -, hs⟩ := Report.ofText_of_isWhole hwhole
    rw [hs]
    exact Or.inl ⟨rfl, nofun⟩
  · rw [Report.ofText_of_not_isWhole hwhole]
    exact Or.inr ⟨⟨_, rfl⟩, rfl⟩

theorem escaped_ofText_iff {text : Text} {t : Trouble} : (Report.ofText text).escaped = some t ↔
    ¬ text.IsWhole ∧ t = unwritten text.uncontrolled := by
  by_cases hwhole : text.IsWhole
  · obtain ⟨s, -, hs⟩ := Report.ofText_of_isWhole hwhole
    rw [hs]
    exact iff_of_false nofun fun h => h.1 hwhole
  · rw [Report.ofText_of_not_isWhole hwhole, and_iff_right hwhole]
    exact ⟨fun h => (Option.some.inj h).symm, fun h => congrArg some h.symm⟩

/-- The write of a command has been accepted, and what the command is about has a half in it, so
that its message cannot be printed. -/
def Command.Unprinted (c : Command) (connect : Gateway → Except StoreError Gateway)
    (config : Config) (σ : Session) (t : Trouble) : Prop :=
  ¬ c.subject.IsWhole ∧ ∃ call text σ', c.call? = some call ∧
    c.connected connect config σ = .ok text σ' ∧ σ.WroteOnce σ' ∧ t = unwritten text.uncontrolled

section Report

variable {connect : Gateway → Except StoreError Gateway} {config : Config} {level : Level}
  {c : Command} {σ σ' : Session} {text : Text} {t : Trouble}

theorem connected_of_ok {g : Gateway} (h : connect { config } = .ok g) :
    c.connected connect config σ = c.execute g σ := by
  unfold Command.connected
  rw [h]
  rfl

theorem connected_of_error {e : StoreError} (h : connect { config } = .error e) :
    c.connected connect config σ = .error (.store e) σ := by
  unfold Command.connected
  rw [h]
  rfl

theorem report_of_ok (h : c.connected connect config σ = .ok text σ') :
    (Plan.report connect (.run config level c) σ).1 = .ofText text := by
  simp only [Plan.report, h]

theorem report_of_error (h : c.connected connect config σ = .error t σ') :
    (Plan.report connect (.run config level c) σ).1 = .ofTrouble t := by
  simp only [Plan.report, h]

theorem isWhole_of_connected_get {arn : Option Text} {format : Format}
    (h : (Command.get arn format).connected connect config σ = .ok text σ') : text.IsWhole := by
  obtain ⟨g, σ₁, -, h⟩ := Work.bind_eq_ok.mp h
  obtain ⟨r, σ₂, -, h⟩ := Work.bind_eq_ok.mp h
  obtain ⟨rs, σ₃, -, h⟩ := Work.bind_eq_ok.mp h
  cases h
  exact Text.isWhole_ofString _

/-- What a command prints cannot be printed exactly if the command changes something and what it is
about has a half in it. -/
theorem unprinted_iff (hσ : σ.cluster.Filed) (h : c.connected connect config σ = .ok text σ') :
    c.Unprinted connect config σ t ↔ ¬ text.IsWhole ∧ t = unwritten text.uncontrolled := by
  constructor
  · rintro ⟨hhalf, call, text', σ₁, hcall, hrun, -, rfl⟩
    rw [h] at hrun
    cases hrun
    obtain ⟨a, rfl⟩ := Command.text_of_connected hcall h
    exact ⟨mt (Command.isWhole_text hcall a).mp hhalf, rfl⟩
  · rintro ⟨hhalf, rfl⟩
    cases hcall : c.call? with
    | none =>
      cases c with
      | get arn format => exact absurd (isWhole_of_connected_get h) hhalf
      | create | delete | addAccount | removeAccount => cases hcall
    | some call =>
      have hconnected := Command.allOrNothing_connected hcall connect config hσ
      rw [Work.AllOrNothing, h] at hconnected
      obtain ⟨a, rfl⟩ := Command.text_of_connected hcall h
      exact ⟨mt (Command.isWhole_text hcall a).mpr hhalf, call, _, σ', hcall, h, hconnected.1, rfl⟩

theorem not_unprinted_of_error (h : c.connected connect config σ = .error t σ') (t' : Trouble) :
    ¬ c.Unprinted connect config σ t' := by
  rintro ⟨-, call, text, σ₁, -, hrun, -⟩
  rw [h] at hrun
  cases hrun

end Report

section Run

variable {s : Gateway.Sources} {config : Config} {c : Command} {σ σ' : Session} {t t' : Trouble}

theorem connected_of_escapes (hg : ∃ g, Gateway.connectFrom s { config } = .ok g)
    (h : c.Escapes config σ t) :
    ∃ σ', c.connected (Gateway.connectFrom s) config σ = .error t σ' := by
  obtain ⟨g, hg⟩ := hg
  rcases Gateway.connectFrom_cases s { config } with ⟨e, he, -⟩ | ⟨g', hg', hapi, hconfig⟩
  · rw [hg] at he
    cases he
  · rw [connected_of_ok hg']
    exact execute_of_escapes hapi (hconfig ▸ h)

theorem eq_of_escapes (hrun : c.connected (Gateway.connectFrom s) config σ = .error t σ')
    (hg : ∃ g, Gateway.connectFrom s { config } = .ok g) (h : c.Escapes config σ t') : t' = t := by
  obtain ⟨σ₁, herror⟩ := connected_of_escapes hg h
  rw [hrun] at herror
  cases herror
  rfl

theorem isListed_or_escapes_of_connected (hσ : σ.cluster.Filed)
    (hrun : c.connected (Gateway.connectFrom s) config σ = .error t σ') :
    t.IsListed ∨ (∃ g, Gateway.connectFrom s { config } = .ok g) ∧ c.Escapes config σ t := by
  rcases Gateway.connectFrom_cases s { config } with ⟨e, he, hlisted⟩ | ⟨g, hg, hapi, hconfig⟩
  · rw [connected_of_error he] at hrun
    cases hrun
    exact Or.inl hlisted
  · have hconfig : g.config = config := hconfig
    rw [connected_of_ok hg] at hrun
    rcases isListed_or_escapes_of_execute hapi hσ hrun with hlisted | h
    · exact Or.inl hlisted
    · exact Or.inr ⟨⟨g, hg⟩, hconfig ▸ h⟩

/-- The run of a command ends without a report exactly if the command escapes, where the cluster can
be reached, or has a message that cannot be printed. -/
theorem isSound_report_run (s : Gateway.Sources) (hσ : σ.cluster.Filed) (config : Config)
    (level : Level) (c : Command) :
    let report := (Plan.report (Gateway.connectFrom s) (.run config level c) σ).1
    report.IsSound ∧ ∀ t, report.escaped = some t ↔
      (∃ g, Gateway.connectFrom s { config } = .ok g) ∧ c.Escapes config σ t ∨
        c.Unprinted (Gateway.connectFrom s) config σ t := by
  intro report
  cases hrun : c.connected (Gateway.connectFrom s) config σ with
  | ok text σ' =>
    have hreport : report = .ofText text := report_of_ok hrun
    rw [hreport]
    refine ⟨isSound_ofText text, fun t => ?_⟩
    rw [escaped_ofText_iff, ← unprinted_iff hσ hrun]
    refine (or_iff_right ?_).symm
    rintro ⟨hg, h⟩
    obtain ⟨σ₁, herror⟩ := connected_of_escapes hg h
    rw [hrun] at herror
    cases herror
  | error t σ' =>
    have hreport : report = .ofTrouble t := report_of_error hrun
    rw [hreport]
    simp only [not_unprinted_of_error hrun, or_false]
    rcases isListed_or_escapes_of_connected hσ hrun with hlisted | ⟨hg, h⟩
    · obtain ⟨hescaped, hcode⟩ := isSound_ofTrouble hlisted
      rw [hescaped]
      refine ⟨Or.inl ⟨hescaped, hcode⟩, fun t' => iff_of_false nofun ?_⟩
      rintro ⟨hg, h⟩
      obtain rfl := eq_of_escapes hrun hg h
      obtain ⟨e, rfl, -⟩ := hlisted
      exact h.ne_store e rfl
    · rw [ofTrouble_of_ne_store h.ne_store]
      refine ⟨Or.inr ⟨⟨t, rfl⟩, rfl⟩, fun t' => ?_⟩
      rw [Option.some.injEq]
      constructor
      · rintro rfl
        exact ⟨hg, h⟩
      · rintro ⟨hg, h'⟩
        exact (eq_of_escapes hrun hg h').symm

end Run

theorem isSound_report_unconfigured {w : Surroundings} {args : List Text} {t : Trouble}
    (h : Plan.ofArgs w args = .unconfigured t) :
    (Report.unconfigured t).IsSound ∧
      ∀ t', (Report.unconfigured t).escaped = some t' ↔
        t' = .homeless ∧ Plan.Homeless w args := by
  rcases ofArgs_eq_unconfigured h with ⟨fs, rfl⟩ | ⟨rfl, hhome⟩
  · refine ⟨Or.inl ⟨rfl, nofun⟩, fun t' => iff_of_false nofun ?_⟩
    rintro ⟨-, hhome⟩
    rw [ofArgs_of_homeless hhome] at h
    cases h
  · refine ⟨Or.inr ⟨⟨.homeless, rfl⟩, rfl⟩, fun t' => ?_⟩
    constructor
    · intro ht'
      cases ht'
      exact ⟨rfl, hhome⟩
    · rintro ⟨rfl, -⟩
      rfl

/-- What ends a run without a report: a home that is not known, where a command is named; what the
command escapes with, where the cluster can be reached; or its message, where there is a half in
it. -/
def Plan.Escapes (w : Surroundings) (args : List Text) (s : Gateway.Sources) (σ : Session)
    (t : Trouble) : Prop :=
  t = .homeless ∧ Plan.Homeless w args ∨
    ∃ config level c, Plan.ofArgs w args = .run config level c ∧
      ((∃ g, Gateway.connectFrom s { config } = .ok g) ∧ c.Escapes config σ t ∨
        c.Unprinted (Gateway.connectFrom s) config σ t)

theorem not_escapes_of_ne {w : Surroundings} {args : List Text} {p : Plan}
    (hp : Plan.ofArgs w args = p) (hne : ∀ t, p ≠ .unconfigured t)
    (hrun : ∀ config level c, p ≠ .run config level c) (s : Gateway.Sources) (σ : Session)
    (t : Trouble) : ¬ Plan.Escapes w args s σ t := by
  subst hp
  rintro (⟨-, h⟩ | ⟨config, level, c, h, -⟩)
  · exact hne _ (ofArgs_of_homeless h)
  · exact hrun _ _ _ h

/-- A run of the command line ends with one of the codes that are meant, unless it ends without a
report. It does so exactly when a command is named while the path of the file to connect with starts
at the home of a user that is not known; when the cluster answers with an object that is none, or
one in whose texts the command meets a scalar without a value; or when the write of the command has
been accepted and there is a half in what it is about, so that this cannot be said. The limit that
an interpreter puts on the depth of nested texts is left out. -/
theorem escaped_iff (w : Surroundings) (args : List Text) (s : Gateway.Sources) {σ : Session}
    (hσ : σ.cluster.Filed) :
    let report := ((Plan.ofArgs w args).report (Gateway.connectFrom s) σ).1
    (report.exitCode.code ∈ [0, 2, 3, 4, 5, 8] ↔ report.escaped = none) ∧
      ∀ t, report.escaped = some t ↔ Plan.Escapes w args s σ t := by
  intro report
  suffices h : report.IsSound ∧ ∀ t, report.escaped = some t ↔ Plan.Escapes w args s σ t from
    ⟨code_mem_iff h.1, h.2⟩
  cases hplan : Plan.ofArgs w args with
  | usage | help | version =>
    simp only [report, hplan, Plan.report]
    refine ⟨Or.inl ⟨rfl, nofun⟩, fun t => iff_of_false nofun ?_⟩
    exact not_escapes_of_ne hplan (fun _ h => by cases h) (fun _ _ _ h => by cases h) s σ t
  | unconfigured t =>
    obtain ⟨hsound, hescaped⟩ := isSound_report_unconfigured hplan
    simp only [report, hplan, Plan.report]
    refine ⟨hsound, fun t' => (hescaped t').trans (or_iff_left ?_).symm⟩
    rintro ⟨config, level, c, h, -⟩
    rw [hplan] at h
    cases h
  | run config level c =>
    obtain ⟨hsound, hescaped⟩ := isSound_report_run s hσ config level c
    simp only [report, hplan]
    refine ⟨hsound, fun t => (hescaped t).trans ?_⟩
    constructor
    · intro h
      exact Or.inr ⟨config, level, c, hplan, h⟩
    · rintro (⟨-, h⟩ | ⟨config', level', c', h, hc⟩)
      · rw [ofArgs_of_homeless h] at hplan
        cases hplan
      · rw [hplan] at h
        cases h
        exact hc

/-- A date in a thirteenth month, where the roles are to be listed. -/
theorem not_documented_month :
    let m : ConfigMap := {
      name := .str objectName, ns := .str objectNamespace, uid := .str "u", version := .str "1"
      data := .ofTexts [(rolesKey, "- 2024-13-01\n")] }
    let σ : Session := { cluster := ({} : Cluster).seed objectNamespace objectName m }
    let w : Surroundings := { homes := { own := "/root" }, file? := fun _ => none }
    let report := ((Plan.ofArgs w ["get"]).report (Gateway.connectFrom {}) σ).1
    report.exitCode.code ∉ [0, 2, 3, 4, 5, 8] ∧ report.escaped = some (.value .month) := by
  decide +kernel

/-- A file to connect with at the home of a user that is not known. Help is given nevertheless. -/
theorem escaped_iff_homeless :
    let w : Surroundings := {
      homes := { own := "/root" }, env := [("KUBECONFIG", "~nouser/config")]
      file? := fun _ => none }
    let run (args : List Text) := ((Plan.ofArgs w args).report (Gateway.connectFrom {}) {}).1
    (run ["get"]).escaped = some .homeless ∧ (run ["get"]).exitCode.code ∉ [0, 2, 3, 4, 5, 8] ∧
      (run ["--help"]).escaped = none := by
  intro w run
  have hfiled : ({} : Session).cluster.Filed := nofun
  obtain ⟨hget, hescaped⟩ := escaped_iff w ["get"] {} hfiled
  have hhome : Plan.Homeless w ["get"] := by
    have hparse : parse Plan.groupOptions false ["get"] = some { rest := ["get"] } := by
      decide +kernel
    refine ⟨⟨[], .warning, "get", []⟩, _, ?_, rfl, Or.inl (by decide +kernel)⟩
    rw [ask, hparse]
    rfl
  have hhomeless : (run ["get"]).escaped = some .homeless :=
    (hescaped .homeless).mpr (Or.inl ⟨rfl, hhome⟩)
  refine ⟨hhomeless, ?_, ?_⟩
  · intro hcode
    have hnone : (run ["get"]).escaped = none := hget.mp hcode
    rw [hhomeless] at hnone
    cases hnone
  · exact (escaped_iff w ["--help"] {} hfiled).1.mp (by decide +kernel)

end Cli

end AuthMap
