import AuthMap.Event
import AuthMap.Proofs.Cluster.Object
import AuthMap.Proofs.Path

/-! Settings from several places. Where a configuration that has been checked stands for some of
them, checking all again gives what one check of the texts themselves gives. -/

namespace AuthMap

/-! ### Texts that pass their check -/

namespace Config

variable {homes : Homes} {loc : List String}

theorem nameText_eq_ok {most : ℕ} {form : List Char → Bool} {pattern : String} {j : Json}
    {s : String} : nameText most form pattern loc j = .ok s ↔
      j = .str s ∧ s ≠ "" ∧ s.length ≤ most ∧ form s.toList := by
  cases hj : j.asString loc with
  | bad fs =>
    rw [nameText, hj]
    refine iff_of_false nofun ?_
    rintro ⟨rfl, -⟩
    rw [Json.asString_str] at hj
    cases hj
  | ok s' =>
    obtain rfl := Json.asString_eq_ok hj
    have hstr : Json.str (Text.ofString s') = .str (Text.ofString s) ↔ s' = s :=
      ⟨fun h => Text.ofString_injective (Json.str.inj h), fun h => by rw [h]⟩
    rw [nameText, hj, hstr]
    simp only [Checked.andThen]
    constructor
    · intro h
      split at h
      · cases h
      · next hne =>
        split at h
        · cases h
        · next hmost =>
          split at h
          · next hform =>
            obtain rfl := Checked.ok.inj h
            exact ⟨rfl, by simpa using hne, Nat.le_of_not_lt hmost, hform⟩
          · cases h
    · rintro ⟨rfl, hne, hmost, hform⟩
      rw [if_neg (by simpa using hne), if_neg (Nat.not_lt.mpr hmost), if_pos hform]

theorem nameText_self {most : ℕ} {form : List Char → Bool} {pattern : String} {j : Json}
    {s : String} (h : nameText most form pattern loc j = .ok s) :
    nameText most form pattern loc (.str s) = .ok s := by
  obtain ⟨rfl, -⟩ := nameText_eq_ok.mp h
  exact h

/-- What a text or a default has been taken to be passes again. -/
theorem elim_nameText_self {default s pattern : String} {most : ℕ} {form : List Char → Bool}
    {v : Option Text} (hdefault : nameText most form pattern loc (.str default) = .ok default)
    (h : v.elim (.ok default) (fun t => nameText most form pattern loc (.str t)) = .ok s) :
    nameText most form pattern loc (.str s) = .ok s := by
  cases v with
  | none =>
    obtain rfl := Checked.ok.inj h
    exact hdefault
  | some _ => exact nameText_self h

theorem expand_self (hhomes : homes.Anchored) {t path : Text} (h : expand homes t = .ok path) :
    expand homes path = .ok path := by
  obtain ⟨p, hp, rfl⟩ := Except.map_eq_ok.mp h
  obtain ⟨hnormal, hself⟩ := Path.expand_expand hhomes (Path.normal_ofText _) hp
  rw [expand, hnormal.ofText_toText, hself]
  rfl

theorem asTextOrNull_ofText? (loc : List String) (t : Option Text) :
    (Json.ofText? t).asTextOrNull loc = .ok t := by
  cases t <;> rfl

theorem kubeconfigOf_ofText? (homes : Homes) (loc : List String) (t : Option Text) :
    kubeconfigOf homes loc (.ofText? t) =
      match t.map (expand homes) with
      | none | some (.error .unknown) => .ok none
      | some (.error (.refused text)) => .fail loc (.refused text)
      | some (.ok path) => .ok (some path) := by
  rw [kubeconfigOf, asTextOrNull_ofText?]
  rfl

end Config

/-! ### Settings -/

/-- Texts for a configuration, where options or variables give some. -/
structure Settings where
  kubeconfig : Option Text := none
  context : Option Text := none
  ns : Option Text := none
  name : Option Text := none
  deriving DecidableEq, Repr

namespace Settings

def fields (s : Settings) : List (String × Json) :=
  let given (key : String) (value : Option Text) : List (String × Json) :=
    (value.map fun t => (key, .str t)).toList
  given "kubeconfig_path" s.kubeconfig ++ given "context" s.context ++ given "namespace" s.ns ++
    given "name" s.name

/-- The settings given first, and the others where these give none. -/
def overlay (o s : Settings) : Settings where
  kubeconfig := o.kubeconfig.or s.kubeconfig
  context := o.context.or s.context
  ns := o.ns.or s.ns
  name := o.name.or s.name

def ofConfig (c : Config) : Settings where
  kubeconfig := c.kubeconfig
  context := c.context
  ns := some c.ns
  name := some c.name

/-- One check of all the texts. -/
def config (homes : Homes) (s : Settings) : Except Trouble Config := Config.ofFields homes s.fields

/-! ### Fields -/

/-- The fields say what the settings say, and nothing else. -/
structure Says (fields : List (String × Json)) (s : Settings) : Prop where
  name : Json.field? "name" fields = s.name.map (.str ·)
  ns : Json.field? "namespace" fields = s.ns.map (.str ·)
  kubeconfig : (Json.field? "kubeconfig_path" fields).getD .null = .ofText? s.kubeconfig
  context : (Json.field? "context" fields).getD .null = .ofText? s.context
  labels : (Json.field? "labels" fields).getD (.obj []) = .obj []
  only : Json.onlyFields Config.fieldNames fields = .ok ()

theorem says_fields (s : Settings) : Says s.fields s := by
  obtain ⟨_ | kubeconfig, _ | context, _ | ns, _ | name⟩ := s
  all_goals constructor
  all_goals rfl

theorem says_setFields {c : Config} (hlabels : c.labels = []) (o : Settings) :
    Says (setFields c.fields o.fields) (o.overlay (ofConfig c)) := by
  obtain ⟨name, ns, kubeconfig, context, labels⟩ := c
  obtain rfl : labels = [] := hlabels
  obtain ⟨_ | kubeconfig, _ | context, _ | ns, _ | name⟩ := o
  all_goals constructor
  all_goals rfl

def nameOf (t : Option Text) : Checked String :=
  t.elim (.ok objectName) fun t =>
    Config.nameText 253 Config.isObjectName Config.objectNamePattern ["name"] (.str t)

def nsOf (t : Option Text) : Checked String :=
  t.elim (.ok objectNamespace) fun t =>
    Config.nameText 63 Config.isNamespace Config.namespacePattern ["namespace"] (.str t)

def fileOf (homes : Homes) (t : Option Text) : Checked (Option Text) :=
  Config.kubeconfigOf homes ["kubeconfig_path"] (.ofText? t)

def checked (homes : Homes) (s : Settings) : Checked Config :=
  (fun name ns kubeconfig => { name, ns, kubeconfig, context := s.context }) <$> nameOf s.name
    <*> nsOf s.ns <*> fileOf homes s.kubeconfig

def Homeless (homes : Homes) (s : Settings) : Prop :=
  s.kubeconfig.map (Config.expand homes) = some (.error .unknown)

section Fields

variable {homes : Homes} {s : Settings} {fields : List (String × Json)}

theorem fieldOr_of_map {default : String} {check : List String → Json → Checked String}
    {name : String} {v : Option Text} (h : Json.field? name fields = v.map (.str ·)) :
    Json.fieldOr default check name fields =
      v.elim (.ok default) fun t => check [name] (.str t) := by
  rw [Json.fieldOr, h]
  cases v <;> rfl

theorem fieldOr_of_getD {α : Type} {default : α} {check : List String → Json → Checked α}
    {name : String} {j j' : Json} (hdefault : check [name] j = .ok default)
    (h : (Json.field? name fields).getD j = j') :
    Json.fieldOr default check name fields = check [name] j' := by
  rw [← h, Json.fieldOr]
  cases Json.field? name fields with
  | none => exact hdefault.symm
  | some _ => rfl

theorem Says.checkFields_eq (h : Says fields s) :
    Config.checkFields homes fields = checked homes s := by
  have hlabels : Config.labelsOf ["labels"] (.obj []) = .ok [] := rfl
  unfold Config.checkFields checked nameOf nsOf fileOf
  rw [fieldOr_of_map h.name, fieldOr_of_map h.ns, fieldOr_of_getD rfl h.kubeconfig,
    fieldOr_of_getD rfl h.context, fieldOr_of_getD rfl h.labels, h.only,
    Config.asTextOrNull_ofText?, hlabels]
  generalize s.name.elim _ _ = name, s.ns.elim _ _ = ns, Config.kubeconfigOf _ _ _ = file
  cases name <;> cases ns <;> cases file <;>
    simp only [Functor.map, Seq.seq, Checked.findings, List.append_nil, List.nil_append]

theorem Says.isHomeless_iff (h : Says fields s) :
    Config.isHomeless homes fields = true ↔ s.Homeless homes := by
  have hfile : (Json.field? "kubeconfig_path" fields).bind Json.text? = s.kubeconfig := by
    have hgetD : ((Json.field? "kubeconfig_path" fields).getD .null).text? = s.kubeconfig := by
      rw [h.kubeconfig]
      cases s.kubeconfig <;> rfl
    rw [← hgetD]
    cases Json.field? "kubeconfig_path" fields <;> rfl
  rw [Config.isHomeless, hfile, Homeless]
  split
  · next h => exact iff_of_true rfl h
  · next h => exact iff_of_false Bool.false_ne_true h

theorem Says.ofFields_eq (h : Says fields s) : Config.ofFields homes fields = s.config homes := by
  have hhomeless : (Config.isHomeless homes fields = true) =
      (Config.isHomeless homes s.fields = true) :=
    propext (h.isHomeless_iff.trans (says_fields s).isHomeless_iff.symm)
  unfold config Config.ofFields
  simp only [hhomeless, h.checkFields_eq, (says_fields s).checkFields_eq]

end Fields

/-! ### Checks made twice -/

section Twice

variable {homes : Homes} {s : Settings} {c : Config}

theorem config_of_homeless (h : s.Homeless homes) : s.config homes = .error .homeless :=
  if_pos ((says_fields s).isHomeless_iff.mpr h)

theorem config_of_not_homeless (h : ¬ s.Homeless homes) :
    s.config homes = (checked homes s).lift := by
  rw [config, Config.ofFields, if_neg fun hs => h ((says_fields s).isHomeless_iff.mp hs),
    (says_fields s).checkFields_eq]

theorem config_eq_ok : s.config homes = .ok c ↔ ¬ s.Homeless homes ∧ nameOf s.name = .ok c.name ∧
    nsOf s.ns = .ok c.ns ∧ fileOf homes s.kubeconfig = .ok c.kubeconfig ∧
    s.context = c.context ∧ c.labels = [] := by
  by_cases hs : s.Homeless homes
  · rw [config_of_homeless hs]
    exact iff_of_false nofun fun h => h.1 hs
  · rw [config_of_not_homeless hs, Checked.lift_eq_ok, and_iff_right hs]
    simp only [checked, Checked.seq_eq_ok, Checked.map_eq_ok]
    constructor
    · rintro ⟨-, file, ⟨-, ns, ⟨name, hname, rfl⟩, hns, rfl⟩, hfile, rfl⟩
      exact ⟨hname, hns, hfile, rfl, rfl⟩
    · obtain ⟨name, ns, file, context, labels⟩ := c
      rintro ⟨hname, hns, hfile, rfl, rfl⟩
      exact ⟨_, file, ⟨_, ns, ⟨name, hname, rfl⟩, hns, rfl⟩, hfile, rfl⟩

theorem nameOf_self {v : Option Text} {name : String} (h : nameOf v = .ok name) :
    nameOf (some name) = .ok name := Config.elim_nameText_self rfl h

theorem nsOf_self {v : Option Text} {ns : String} (h : nsOf v = .ok ns) :
    nsOf (some ns) = .ok ns := Config.elim_nameText_self rfl h

/-- A path that has passed has nothing left to be put in it. -/
theorem expand_of_fileOf (hhomes : homes.Anchored) {v file : Option Text}
    (h : fileOf homes v = .ok file) : file.map (Config.expand homes) = file.map .ok := by
  rw [fileOf, Config.kubeconfigOf_ofText?] at h
  split at h
  · obtain rfl := Checked.ok.inj h
    rfl
  · obtain rfl := Checked.ok.inj h
    rfl
  · cases h
  · next path hpath =>
    obtain rfl := Checked.ok.inj h
    obtain ⟨t, -, ht⟩ := Option.map_eq_some_iff.mp hpath
    exact congrArg some (Config.expand_self hhomes ht)

theorem fileOf_self (hhomes : homes.Anchored) {v file : Option Text}
    (h : fileOf homes v = .ok file) : fileOf homes file = .ok file := by
  rw [fileOf, Config.kubeconfigOf_ofText?, expand_of_fileOf hhomes h]
  cases file <;> rfl

theorem or_congr {α β : Type} {f : Option α → β} {a b : Option α} (h : f a = f b)
    (o : Option α) : f (o.or a) = f (o.or b) := by
  cases o with
  | none => exact h
  | some _ => rfl

/-- What a check has passed stands for the texts it was made from, whatever is laid over both. -/
theorem config_overlay_ofConfig (hhomes : homes.Anchored) (h : s.config homes = .ok c)
    (o : Settings) : (o.overlay (ofConfig c)).config homes = (o.overlay s).config homes := by
  obtain ⟨hhome, hname, hns, hfile, hcontext, -⟩ := config_eq_ok.mp h
  have hchecked : checked homes (o.overlay (ofConfig c)) = checked homes (o.overlay s) := by
    simp only [checked, overlay, ofConfig]
    rw [or_congr ((nameOf_self hname).trans hname.symm),
      or_congr ((nsOf_self hns).trans hns.symm),
      or_congr ((fileOf_self hhomes hfile).trans hfile.symm), hcontext]
  have hhomeless : (o.overlay (ofConfig c)).Homeless homes ↔ (o.overlay s).Homeless homes := by
    have hc : ¬ (ofConfig c).Homeless homes := by
      rw [Homeless, ofConfig, expand_of_fileOf hhomes hfile]
      cases c.kubeconfig <;> exact nofun
    unfold Homeless at hhome hc ⊢
    cases ho : o.kubeconfig with
    | none => simpa only [overlay, ho, Option.none_or] using iff_of_false hc hhome
    | some path => simp only [overlay, ho, Option.some_or]
  by_cases hs : (o.overlay s).Homeless homes
  · rw [config_of_homeless hs, config_of_homeless (hhomeless.mpr hs)]
  · rw [config_of_not_homeless hs, config_of_not_homeless (mt hhomeless.mp hs), hchecked]

end Twice

/-! ### The environment -/

/-- The text of a variable without its blank ends. -/
def valueOf (env : List (String × Text)) (name : String) : Text :=
  Text.stripped ((env.find? fun e => e.1 = name).map (·.2) |>.getD [])

def filled? (t : Text) : Option Text := if t.isEmpty then none else some t

def ofEnv (env : List (String × Text)) : Settings where
  kubeconfig := filled? ((Text.splitOn (.char ':') (valueOf env "KUBECONFIG")).head?.getD [])
  context := filled? (valueOf env "AUTHMAP_CONTEXT")
  ns := filled? (valueOf env "AUTHMAP_NAMESPACE")
  name := filled? (valueOf env "AUTHMAP_NAME")

theorem envFields_eq (env : List (String × Text)) :
    Config.envFields env = (List.filter (fun f : String × Text => !f.2.isEmpty)
      [("name", valueOf env "AUTHMAP_NAME"), ("namespace", valueOf env "AUTHMAP_NAMESPACE"),
        ("context", valueOf env "AUTHMAP_CONTEXT"),
        ("kubeconfig_path",
          (Text.splitOn (.char ':') (valueOf env "KUBECONFIG")).head?.getD [])]).map
      fun f => (f.1, .str f.2) := rfl

theorem says_envFields (env : List (String × Text)) : Says (Config.envFields env) (ofEnv env) := by
  rw [envFields_eq, ofEnv]
  generalize valueOf env "AUTHMAP_NAME" = name, valueOf env "AUTHMAP_NAMESPACE" = ns,
    valueOf env "AUTHMAP_CONTEXT" = context,
    (Text.splitOn (.char ':') (valueOf env "KUBECONFIG")).head?.getD [] = file
  cases name <;> cases ns <;> cases context <;> cases file
  all_goals constructor
  all_goals rfl

end Settings

end AuthMap
