import AuthMap.Proofs.Cli.Errors
import AuthMap.Proofs.Config

/-! Options before the command over the environment. The configuration is that of one check of the
options and of the variables they leave, once the environment has passed a check by itself. -/

namespace AuthMap

open Settings (valueOf)

/-- The environments agree on the variables that no option stands for. -/
structure Settings.Masks (o : Settings) (env env' : List (String × Text)) : Prop where
  kubeconfig : o.kubeconfig = none → valueOf env' "KUBECONFIG" = valueOf env "KUBECONFIG"
  context : o.context = none → valueOf env' "AUTHMAP_CONTEXT" = valueOf env "AUTHMAP_CONTEXT"
  ns : o.ns = none → valueOf env' "AUTHMAP_NAMESPACE" = valueOf env "AUTHMAP_NAMESPACE"
  name : o.name = none → valueOf env' "AUTHMAP_NAME" = valueOf env "AUTHMAP_NAME"

theorem Settings.Masks.refl (o : Settings) (env : List (String × Text)) : o.Masks env env where
  kubeconfig _ := rfl
  context _ := rfl
  ns _ := rfl
  name _ := rfl

theorem Settings.or_map_eq {α β : Type} (f : α → Option β) {o : Option β} {a b : α}
    (h : o = none → a = b) : o.or (f a) = o.or (f b) := by
  cases o with
  | none => rw [h rfl]
  | some _ => rfl

theorem Settings.Masks.overlay_ofEnv {o : Settings} {env env' : List (String × Text)}
    (h : o.Masks env env') : o.overlay (ofEnv env') = o.overlay (ofEnv env) := by
  simp only [overlay, ofEnv]
  rw [or_map_eq filled? h.context, or_map_eq filled? h.ns, or_map_eq filled? h.name,
    or_map_eq (fun t => filled? ((Text.splitOn (.char ':') t).head?.getD [])) h.kubeconfig]

namespace Cli.Plan

/-- The options before the command as settings. -/
def options? (w : Surroundings) (g : Given) : Option Settings :=
  (kubeconfig? w g).map fun kubeconfig =>
    { kubeconfig, context := g.value? "context", ns := g.value? "namespace"
      name := g.value? "name" }

/-- One check of the options, and of the environment where no option is given. -/
def merged (w : Surroundings) (o : Settings) : Except Trouble Config :=
  (o.overlay (Settings.ofEnv w.env)).config w.homes

variable {w : Surroundings} {args : List Text} {group : Group} {o : Settings}

theorem ask_eq_run {α : Type} {specs : List OptionSpec} {mixed : Bool} {read : Given → Option α}
    {a : α} (h : ask specs mixed args read = .run a) :
    ∃ g, parse specs mixed args = some g ∧ read g = some a := by
  unfold ask at h
  split at h
  · next g hparse =>
    refine ⟨g, hparse, ?_⟩
    unfold Given.asked at h
    split at h
    · cases h
    · cases h
    · split at h
      · next a' hread =>
        cases h
        exact hread
      · cases h
  · cases h

theorem overrides_of_readGroup {g : Given} (h : readGroup w g = some group) :
    ∃ o, options? w g = some o ∧ group.overrides = o.fields := by
  obtain ⟨kubeconfig, hkubeconfig, h⟩ := Option.bind_eq_some_iff.mp h
  obtain ⟨level, -, h⟩ := Option.bind_eq_some_iff.mp h
  refine ⟨_, congrArg (Option.map _) hkubeconfig, ?_⟩
  split at h
  · cases h
    rfl
  · cases h

theorem configure_eq (hhomes : w.homes.Anchored) (o : Settings) :
    configure w o.fields = (Config.ofEnv w.homes w.env >>= fun _ => merged w o) := by
  have henv : Config.ofEnv w.homes w.env = (Settings.ofEnv w.env).config w.homes :=
    (Settings.says_envFields w.env).ofFields_eq
  unfold configure
  rw [henv]
  cases hbase : (Settings.ofEnv w.env).config w.homes with
  | error t => rfl
  | ok base =>
    obtain ⟨-, -, -, -, -, hlabels⟩ := Settings.config_eq_ok.mp hbase
    exact (Settings.says_setFields hlabels o).ofFields_eq.trans
      (Settings.config_overlay_ofConfig hhomes hbase o)

/-- What is to be done depends on the environment by the configuration alone. -/
theorem ofArgs_eq_iff (hask : ask groupOptions false args (readGroup w) = .run group)
    (hname : Command.lookup? group.name ≠ none) {env' : List (String × Text)} {t : Trouble}
    (ht : configure { w with env := env' } group.overrides = .error t) :
    ofArgs { w with env := env' } args = ofArgs w args ↔
      configure w group.overrides = .error t := by
  obtain ⟨⟨specs, read⟩, hlookup⟩ := Option.ne_none_iff_exists'.mp hname
  have hask' : ask groupOptions false args (readGroup { w with env := env' }) = .run group := hask
  simp only [ofArgs, hask, hask', ofGroup, hlookup, ht]
  constructor
  · intro h
    split at h
    · next t' ht' =>
      cases h
      exact ht'
    · split at h <;> cases h
  · intro h
    rw [h]

theorem ofArgs_congr (hask : ask groupOptions false args (readGroup w) = .run group)
    {env' : List (String × Text)}
    (h : configure { w with env := env' } group.overrides = configure w group.overrides) :
    ofArgs { w with env := env' } args = ofArgs w args := by
  have hask' : ask groupOptions false args (readGroup { w with env := env' }) = .run group := hask
  simp only [ofArgs, hask, hask', ofGroup, h]

/-- Options count fully over an environment that passes its check. One that does not ends the run,
also when an option is given for what is wrong in it, and nothing is wrong with the rest. -/
theorem options_override_iff (hhomes : w.homes.Anchored)
    (hask : ask groupOptions false args (readGroup w) = .run group)
    (hname : Command.lookup? group.name ≠ none) :
    ∃ g o, parse groupOptions false args = some g ∧ options? w g = some o ∧
      (configure w group.overrides = merged w o ↔
        ∀ t, Config.ofEnv w.homes w.env = .error t → merged w o = .error t) ∧
      ∀ env', o.Masks w.env env' →
        configure { w with env := env' } group.overrides =
          (Config.ofEnv w.homes env' >>= fun _ => merged w o) ∧
        ∀ base, Config.ofEnv w.homes w.env = .ok base →
          (ofArgs { w with env := env' } args = ofArgs w args ↔
            ∀ t, Config.ofEnv w.homes env' = .error t → merged w o = .error t) := by
  obtain ⟨g, hparse, hread⟩ := ask_eq_run hask
  obtain ⟨o, hoptions, hoverrides⟩ := overrides_of_readGroup hread
  refine ⟨g, o, hparse, hoptions, ?_, fun env' hmasks => ?_⟩
  · rw [hoverrides, configure_eq hhomes, Except.bind_const_eq_iff]
  have hconfigure : configure { w with env := env' } group.overrides =
      (Config.ofEnv w.homes env' >>= fun _ => merged w o) := by
    rw [hoverrides, configure_eq (w := { w with env := env' }) hhomes]
    simp only [merged, hmasks.overlay_ofEnv]
  refine ⟨hconfigure, fun base hbase => ?_⟩
  have hmerged : configure w group.overrides = merged w o := by
    rw [hoverrides, configure_eq hhomes, hbase]
    rfl
  cases henv' : Config.ofEnv w.homes env' with
  | error t =>
    rw [henv'] at hconfigure
    rw [ofArgs_eq_iff hask hname hconfigure, hmerged]
    constructor
    · intro h t' ht'
      rwa [← Except.error.inj ht']
    · exact fun h => h t rfl
  | ok base' =>
    rw [henv'] at hconfigure
    exact iff_of_true (ofArgs_congr hask (hconfigure.trans hmerged.symm)) nofun

/-- A namespace is given. Another one in the environment does not count, unless it is none. -/
theorem options_override_iff_namespace :
    let w : Surroundings := {
      homes := { own := "/root" }, env := [("AUTHMAP_NAMESPACE", "one")]
      file? := fun _ => none }
    let ofEnv (name : Text) :=
      ofArgs { w with env := [("AUTHMAP_NAMESPACE", name)] } ["--namespace", "ok", "get"]
    configure w [("namespace", .str "ok")] = merged w { ns := some "ok" } ∧
      ofEnv "two" = ofEnv "one" ∧ ofEnv "Bad" ≠ ofEnv "one" := by
  intro w ofEnv
  have hhomes : w.homes.Anchored := Homes.anchored_of_rooted (by decide) nofun
  have hparse : parse groupOptions false ["--namespace", "ok", "get"] =
      some { options := [("namespace", "ok")], rest := ["get"] } := by decide +kernel
  have hask : ask groupOptions false ["--namespace", "ok", "get"] (readGroup w) =
      .run ⟨[("namespace", .str "ok")], .warning, "get", []⟩ := by
    rw [ask, hparse]
    rfl
  obtain ⟨g, o, hg, ho, hmerged, hmasked⟩ := options_override_iff hhomes hask nofun
  obtain rfl : _ = g := Option.some.inj (hparse.symm.trans hg)
  obtain rfl : { ns := some "ok" } = o := Option.some.inj ho
  have hone : Config.ofEnv w.homes w.env = .ok { ns := "one" } := by decide +kernel
  have htwo : Config.ofEnv w.homes [("AUTHMAP_NAMESPACE", "two")] = .ok { ns := "two" } := by
    decide +kernel
  have hbad : Config.ofEnv w.homes [("AUTHMAP_NAMESPACE", "Bad")] =
      .error (.invalid [⟨["namespace"], .mismatch Config.namespacePattern⟩]) := by decide +kernel
  have hok : merged w { ns := some "ok" } = .ok { ns := "ok" } := by decide +kernel
  have hmasks (name : Text) :
      ({ ns := some "ok" } : Settings).Masks w.env [("AUTHMAP_NAMESPACE", name)] :=
    ⟨fun _ => rfl, fun _ => rfl, nofun, fun _ => rfl⟩
  refine ⟨hmerged.mpr ?_, ((hmasked _ (hmasks "two")).2 _ hone).mpr ?_,
    mt ((hmasked _ (hmasks "Bad")).2 _ hone).mp ?_⟩
  · rw [hone]
    exact nofun
  · rw [htwo]
    exact nofun
  · intro h
    have herror := h _ hbad
    rw [hok] at herror
    cases herror

/-- A namespace that is not one, in the environment only. The run ends as it does for one that is
given, where it succeeds without the variable. -/
theorem not_merged_of_invalid :
    let w : Surroundings := {
      homes := { own := "/root" }, env := [("AUTHMAP_NAMESPACE", "Bad")]
      file? := fun _ => none }
    let o : Settings := { ns := some "ok" }
    let code (w : Surroundings) :=
      ((ofArgs w ["--namespace", "ok", "get"]).report (Gateway.connectFrom {}) {}).1.exitCode.code
    merged w o = .ok { ns := "ok" } ∧ configure w o.fields ≠ merged w o ∧ code w = 2 ∧
      code { w with env := [] } = 0 := by
  decide +kernel

end Cli.Plan

end AuthMap
