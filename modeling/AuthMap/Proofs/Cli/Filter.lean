import AuthMap.Proofs.Cli.Listing
import AuthMap.Proofs.Cluster.Saving
import AuthMap.Proofs.Cluster.Sparing

/-! A listing of one principal. It shows the records of that principal, in their order, or says that
there are none; and no edit of the records of others changes it. A name that is empty asks for no
principal. -/

namespace AuthMap.Cli

open Command (listing selected)

/-! ### The command line -/

def Format.name : Format → String
  | .json => "json"
  | .yaml => "yaml"

section Arguments

variable {specs : List OptionSpec} {mixed : Bool}

/-- The argument after an option is its value, whatever it looks like. -/
theorem parse_option {arg value : Text} {key : String} (hne : arg ≠ "--")
    (harg : isOption arg = true) (hstep : step specs arg (some value) = some ([(key, value)], true))
    (args : List Text) : parse specs mixed (arg :: value :: args) =
      (parse specs mixed args).map fun g => { g with options := (key, value) :: g.options } := by
  rw [parse, if_neg hne, if_pos harg, List.head?_cons, hstep]
  rfl

theorem parse_command {name : Text} (hne : name ≠ "--") (hname : isOption name = false)
    (args : List Text) : parse specs false (name :: args) = some { rest := name :: args } := by
  rw [parse, if_neg hne]
  simp [hname]

theorem parse_get (arn : Text) (format : Format) :
    parse [Command.helpOption, Command.arnOption, { key := "output", names := ["--output", "-o"] }]
        true ["--arn", arn, "--output", format.name] =
      some { options := [("arn", arn), ("output", format.name)] } := by
  rw [parse_option (by decide) (by decide) rfl, parse_option (by decide) (by decide) rfl, parse]
  rfl

theorem choice?_name (format : Format) :
    choice? ["json", "yaml"] format.name = some format.name := by
  cases format <;> rfl

theorem readGet_get (arn : Text) (format : Format) :
    Command.readGet { options := [("arn", arn), ("output", format.name)] } =
      some (.get (some arn) format) := by
  have hformat : Command.format? { options := [("arn", arn), ("output", format.name)] } =
      some format := by
    have hname : ({ options := [("arn", arn), ("output", format.name)] } : Given).value? "output" =
        some (Text.ofString format.name) := rfl
    rw [Command.format?, hname, Option.getD_some, choice?_name]
    cases format <;> rfl
  rw [Command.readGet, hformat]
  rfl

theorem readGroup_get (w : Surroundings) (args : List Text) :
    Plan.readGroup w { rest := "get" :: args } = some ⟨[], .warning, "get", args⟩ := by
  have hlevel : (choice? Plan.levelNames "WARNING").bind Level.ofName? = some .warning := rfl
  have hnone (key : String) : ({ rest := "get" :: args } : Given).value? key = none := rfl
  have hfile : Plan.kubeconfig? w { rest := "get" :: args } = some none := rfl
  unfold Plan.readGroup
  simp only [hnone, hfile, Option.getD_none]
  rw [hlevel]
  rfl

theorem ofArgs_get {w : Surroundings} {config : Config} (hconfig : Plan.configure w [] = .ok config)
    (arn : Text) (format : Format) :
    Plan.ofArgs w ["get", "--arn", arn, "--output", format.name] =
      .run config .warning (.get (some arn) format) := by
  have hgroup : ask Plan.groupOptions false ["get", "--arn", arn, "--output", format.name]
      (Plan.readGroup w) =
        .run ⟨[], .warning, "get", ["--arn", arn, "--output", format.name]⟩ := by
    rw [ask, parse_command (by decide) (by decide)]
    simp only [Given.asked, List.find?_nil, readGroup_get]
  have hget : Given.asked { options := [("arn", arn), ("output", format.name)] } Command.readGet =
      .run (.get (some arn) format) := by
    unfold Given.asked
    rw [readGet_get]
    rfl
  rw [Plan.ofArgs, hgroup]
  simp only [Plan.ofGroup, Command.lookup?, Text.string?_ofString, hconfig, ask, parse_get, hget]

end Arguments

/-! ### Reports -/

/-- What an output says in a format. -/
def Format.Shows : Format → List Identity → String → Prop
  | .json, rs, output =>
    Json.ofString? output = some (Identity.listed (rs.map Identity.paired))
  | .yaml, rs, output => Yaml.Shows output (Identity.listed rs)

theorem Format.shows_listing (format : Format) (rs : List Identity) :
    format.Shows rs (listing format rs) := by
  cases format with
  | json => exact ofString?_listing rs
  | yaml => exact Cli.shows_listing rs

theorem Format.Shows.length_eq {format : Format} {rs rs' : List Identity} {output : String}
    (h : format.Shows rs output) (h' : format.Shows rs' output) : rs.length = rs'.length := by
  cases format with
  | json =>
    have hpaired := Identity.listed_injective (Option.some.inj (h.symm.trans h'))
    simpa using congrArg List.length hpaired
  | yaml => rw [Identity.listed_injective (Yaml.Shows.unique h h')]

/-- The records with this name are shown, or there are none, and nothing is shown. -/
structure Report.Filters (format : Format) (arn : Text) (rs : List Identity) (report : Report) :
    Prop where
  found : rs.filter (fun x => x.arn = arn) ≠ [] → report.exitCode = .success ∧
    format.Shows (rs.filter fun x => x.arn = arn) report.output
  absent : rs.filter (fun x => x.arn = arn) = [] →
    report.exitCode = .notFound ∧ report.output = ""

/-- The report on the records of one principal. -/
def Report.ofRecords (format : Format) (arn : Text) (own : List Identity) : Report :=
  if own.isEmpty then .ofTrouble (.store (.identityNotFound arn))
  else { exitCode := .success, output := listing format own }

theorem Report.filters_ofRecords (format : Format) (arn : Text) (rs : List Identity) :
    (Report.ofRecords format arn (rs.filter fun x => x.arn = arn)).Filters
      format arn rs where
  found h := by
    rw [ofRecords, if_neg (by simpa using h)]
    exact ⟨rfl, format.shows_listing _⟩
  absent h := by
    rw [h]
    exact ⟨rfl, rfl⟩

/-- A report on all records is one on those of a name only if they are the same. -/
theorem Report.filters_listing_iff {format : Format} {arn : Text} {rs : List Identity} :
    Report.Filters format arn rs { exitCode := .success, output := listing format rs } ↔
      rs ≠ [] ∧ ∀ x ∈ rs, x.arn = arn := by
  have hall : (rs.filter fun x => x.arn = arn).length = rs.length ↔
      ∀ x ∈ rs, x.arn = arn := by
    simp only [List.length_filter_eq_length_iff, decide_eq_true_eq]
  constructor
  · intro h
    have hown : rs.filter (fun x => x.arn = arn) ≠ [] := by
      intro hnone
      exact absurd (h.absent hnone).1 nofun
    refine ⟨fun hnil => hown (by rw [hnil]; rfl), hall.mp ?_⟩
    exact (h.found hown).2.length_eq (format.shows_listing rs)
  · rintro ⟨hne, hsame⟩
    have hown : rs.filter (fun x => x.arn = arn) = rs :=
      List.filter_eq_self.mpr fun x hx => decide_eq_true (hsame x hx)
    refine ⟨fun _ => ?_, fun hnone => absurd (hown.symm.trans hnone) hne⟩
    rw [hown]
    exact ⟨rfl, format.shows_listing rs⟩

section Runs

variable {connect : Gateway → Except StoreError Gateway} {config : Config} {level : Level}
  {g : Gateway} {σ σ' : Session} {r : Resource} {rs own : List Identity} {arn : Text}
  {format : Format}

theorem selected_of_ne (h : arn ≠ []) (r : Resource) :
    selected (some arn) r = r.find (.text arn) := by
  unfold selected
  split
  · next heq => cases heq
  · next heq => exact absurd (Option.some.inj heq) h
  · next heq => rw [Option.some.inj heq]

theorem report_get_of_ne (hg : connect { config } = .ok g) (hfetch : g.fetch σ = .ok r σ')
    (hown : r.get (.text arn) = .ok own) (harn : arn ≠ []) :
    (Plan.report connect (.run config level (.get (some arn) format)) σ).1 =
      .ofRecords format arn own := by
  have hfind := Resource.find_of_get hown
  rw [← selected_of_ne harn] at hfind
  unfold Report.ofRecords
  split
  · next hnone =>
    rw [if_pos hnone] at hfind
    have hexecute : (Command.get (some arn) format).execute g σ =
        .error (.store (.identityNotFound arn)) σ' := by
      rw [Command.execute, Work.bind_of_ok hfetch, hfind]
      rfl
    exact report_of_error ((connected_of_ok hg).trans hexecute)
  · next hsome =>
    rw [if_neg hsome] at hfind
    rw [← ofText_listing format own]
    exact report_of_ok ((connected_of_ok hg).trans (execute_get hfetch hfind format))

/-- Without a name, and with the empty one, all records are listed. -/
theorem report_get_empty (hg : connect { config } = .ok g) (hfetch : g.fetch σ = .ok r σ')
    (hrs : r.identities = .ok rs) :
    (Plan.report connect (.run config level (.get (some []) format)) σ).1 =
      { exitCode := .success, output := listing format rs } := by
  have hselected : selected (some []) r = .ok rs := hrs
  rw [← ofText_listing format rs]
  exact report_of_ok ((connected_of_ok hg).trans (execute_get hfetch hselected format))

theorem lists_of_reads (hfiled : σ.cluster.Filed) (hreads : g.reads σ.cluster = .ok r)
    {p : Principal} (hown : r.get p = .ok own) :
    World.Lists g.config.ns g.config.name p own { session := σ } := by
  refine ⟨hfiled, ?_, nofun⟩
  unfold Gateway.reads at hreads
  unfold Cluster.Lists
  split at hreads
  · next hobject =>
    rw [hobject]
    rw [← Except.ok.inj hreads, g.get_blank] at hown
    exact (Except.ok.inj hown).symm
  · next m hobject =>
    rw [hobject]
    exact ⟨r, hreads, hown⟩

/-- A listing of one name shows the records with this name, in their order, or it ends with the code
for what is not found and shows nothing, whatever else the cluster holds. Steps of stores that edit
the records of others alone do not change it. The empty name is the one that is not looked for: all
records are listed then, which is right only if they all have that name. -/
theorem get_filters_iff (hg : connect { config } = .ok g) (hfetch : g.fetch σ = .ok r σ')
    (hrs : r.identities = .ok rs) (arn : Text) (format : Format) :
    let get (σ : Session) :=
      (Plan.report connect (.run config level (.get (some arn) format)) σ).1
    (∀ w, Plan.configure w [] = .ok config →
      Plan.ofArgs w ["get", "--arn", arn, "--output", format.name] =
        .run config .warning (.get (some arn) format)) ∧
    ((get σ).Filters format arn rs ↔ arn ≠ [] ∨ rs ≠ [] ∧ ∀ x ∈ rs, x.arn = []) ∧
    (arn ≠ [] → σ.cluster.Filed → σ.failures = [] → ∀ τ steps, τ.cluster = σ.cluster →
      (∀ x ∈ steps, x.Spares (.text arn)) →
        let w := World.run steps { session := τ }
        w.session.failures = [] → get w.session = get σ) := by
  intro get
  have hown := Resource.get_eq hrs (.text arn)
  refine ⟨fun w hconfig => ofArgs_get hconfig arn format, ?_, ?_⟩
  · by_cases harn : arn = []
    · subst harn
      have hall : get σ = _ := report_get_empty hg hfetch hrs
      rw [hall, Report.filters_listing_iff]
      exact (or_iff_right fun h => h rfl).symm
    · have hnamed : get σ = _ := report_get_of_ne hg hfetch hown harn
      rw [hnamed]
      exact iff_of_true (Report.filters_ofRecords format arn rs) (Or.inl harn)
  · intro harn hfiled hf τ steps hτ hsteps w hw
    obtain ⟨hreads, -⟩ := Gateway.reads_of_fetch hf hfetch
    rw [← hτ] at hfiled hreads
    -- the steps leave the records of this name, so a fetch gives the same ones again
    have hlists := (lists_of_reads hfiled hreads hown).run hsteps
    obtain ⟨r', hreads', hown'⟩ := Gateway.reads_of_lists hlists.cluster
    obtain ⟨σ₁, hfetch', -⟩ := Gateway.fetch_reads (Gateway.api_of_fetch hfetch) hw
    rw [hreads'] at hfetch'
    have hbefore : get σ = _ := report_get_of_ne hg hfetch hown harn
    have hafter : get w.session = _ := report_get_of_ne hg hfetch' hown' harn
    rw [hbefore, hafter]

/-- Another role is removed, at the second attempt to save. -/
theorem get_filters_iff_others :
    let texts : Data := [(rolesKey,
      "- rolearn: arn:aws:iam::1:role/a\n- rolearn: arn:aws:iam::1:role/b\n")]
    let m : ConfigMap := {
      name := .str objectName, ns := .str objectNamespace, uid := .str "u", version := .str "1"
      data := .ofTexts texts }
    let rs : List Identity :=
      [{ arn := "arn:aws:iam::1:role/a" }, { arn := "arn:aws:iam::1:role/b" }]
    let σ : Session := { cluster := ({} : Cluster).seed objectNamespace objectName m }
    let τ : Session := { σ with failures := [(.replace, .api (some 500) none)] }
    let w := World.run [.fetch 0 { api := true },
      .call 0 (.removeIdentity (.text "arn:aws:iam::1:role/b") true), .save 0, .save 0]
        { session := τ }
    let get (arn : Text) (σ : Session) :=
      (Plan.report (Gateway.connectFrom {}) (.run {} .warning (.get (some arn) .yaml)) σ).1
    let name : Text := "arn:aws:iam::1:role/a"
    w.accepted.length = 1 ∧ (get name σ).Filters .yaml name rs ∧
      get name w.session = get name σ ∧ ¬ (get [] σ).Filters .yaml [] rs := by
  intro texts m rs σ τ w get name
  let g : Gateway := { client := true, api := true }
  let r : Resource := { uid := "u", version := some "1", data := texts }
  have hg : Gateway.connectFrom {} { config := {} } = .ok g := rfl
  have hreads : g.reads σ.cluster = .ok r := rfl
  obtain ⟨σ', hfetch, -⟩ := Gateway.fetch_reads (g := g) (σ := σ) rfl rfl
  rw [hreads] at hfetch
  have hrs : r.identities = .ok rs := by decide +kernel
  have hfiled : σ.cluster.Filed := Cluster.filed_put nofun fun r' hr' => by
    obtain rfl := Except.ok.inj (hreads.symm.trans hr')
    exact ⟨rfl, rfl⟩
  obtain ⟨-, hnamed, hspared⟩ := @get_filters_iff _ {} .warning g σ σ' r rs hg hfetch hrs name .yaml
  obtain ⟨-, hempty, -⟩ := @get_filters_iff _ {} .warning g σ σ' r rs hg hfetch hrs [] .yaml
  refine ⟨by decide +kernel, hnamed.mpr (Or.inl (by decide)), ?_, mt hempty.mp (by decide)⟩
  refine hspared (by decide) hfiled rfl τ _ rfl ?_ (by decide +kernel)
  simp only [List.forall_mem_cons]
  refine ⟨trivial, ?_, trivial, trivial, by simp⟩
  rintro q ⟨⟩
  decide

/-- The empty name is given, and a record is listed that has another one. It is not listed any more
when it has been removed. -/
theorem not_filters_empty :
    let m : ConfigMap := {
      name := .str objectName, ns := .str objectNamespace, uid := .str "u", version := .str "1"
      data := .ofTexts [(rolesKey, "- rolearn: arn:aws:iam::1:role/r\n")] }
    let rs : List Identity := [{ arn := "arn:aws:iam::1:role/r" }]
    let σ : Session := { cluster := ({} : Cluster).seed objectNamespace objectName m }
    let w : Surroundings := { homes := { own := "/root" }, file? := fun _ => none }
    let get (σ : Session) :=
      ((Plan.ofArgs w ["get", "--arn", []]).report (Gateway.connectFrom {}) σ).1
    let removed := World.run [.fetch 0 { api := true },
      .call 0 (.removeIdentity (.text "arn:aws:iam::1:role/r") true), .save 0] { session := σ }
    (get σ).exitCode.code = 0 ∧ (get σ).output = listing .json rs ∧
      ¬ (get σ).Filters .json [] rs ∧ (get removed.session).output = "[]\n" := by
  intro m rs σ w get removed
  have hcode : (get σ).exitCode = .success := by decide +kernel
  refine ⟨by rw [hcode]; rfl, by decide +kernel, fun h => ?_, by decide +kernel⟩
  rw [(h.absent (by decide)).1] at hcode
  cases hcode

end Runs

end AuthMap.Cli
