import AuthMap.Proofs.Config
import AuthMap.Proofs.Name.Domain

/-! The names that a configuration takes. A namespace is taken exactly if it is a label. The name of
the object may have dots too, wherever they stand inside it. -/

namespace AuthMap

/-! ### Fields beside one -/

namespace Json

variable {key name : String} {fields : List (String × Json)}

def others (key : String) (fields : List (String × Json)) : List (String × Json) :=
  fields.filter (·.1 ≠ key)

theorem field?_others_of_ne (h : name ≠ key) :
    field? name (others key fields) = field? name fields := by
  have hfound (f : String × Json) : (f.1 ≠ key ∧ f.1 = name) = (f.1 = name) :=
    propext ⟨fun hf => hf.2, fun hf => ⟨hf ▸ h, hf⟩⟩
  simp only [field?, others, ← List.filter_reverse, List.find?_filter, decide_eq_true_eq, hfound]

theorem fieldOr_others_of_ne {α : Type} {default : α} {check : List String → Json → Checked α}
    (h : name ≠ key) : fieldOr default check name (others key fields) =
      fieldOr default check name fields := by
  rw [fieldOr, field?_others_of_ne h, fieldOr]

theorem fieldOr_of_field? {α : Type} {default : α} {check : List String → Json → Checked α}
    {j : Json} (h : field? name fields = some j) :
    fieldOr default check name fields = check [name] j := by
  rw [fieldOr, h]

theorem onlyFields_others {names : List String} (h : key ∈ names) :
    onlyFields names (others key fields) = onlyFields names fields := by
  have hunknown (f : String × Json) :
      (!names.contains f.1 && decide (f.1 ≠ key)) = !names.contains f.1 := by
    by_cases hf : f.1 = key
    · simp [hf, h]
    · simp [hf]
  simp only [onlyFields, others, List.filter_filter, hunknown]

end Json

namespace Config

open Json (others)

variable {homes : Homes} {fields : List (String × Json)} {c : Config}

/-- What the name of the object is taken to be. -/
def givenName (fields : List (String × Json)) : Checked String :=
  Json.fieldOr objectName (nameText 253 isObjectName objectNamePattern) "name" fields

def givenNs (fields : List (String × Json)) : Checked String :=
  Json.fieldOr objectNamespace (nameText 63 isNamespace namespacePattern) "namespace" fields

theorem checkFields_eq_ok : checkFields homes fields = .ok c ↔
    givenName fields = .ok c.name ∧ givenNs fields = .ok c.ns ∧
      Json.fieldOr none (kubeconfigOf homes) "kubeconfig_path" fields = .ok c.kubeconfig ∧
      Json.fieldOr none Json.asTextOrNull "context" fields = .ok c.context ∧
      Json.fieldOr [] labelsOf "labels" fields = .ok c.labels ∧
      Json.onlyFields fieldNames fields = .ok () := by
  simp only [checkFields, Checked.seq_eq_ok, Checked.map_eq_ok]
  constructor
  · rintro ⟨_, _, ⟨_, labels, ⟨_, context, ⟨_, file, ⟨_, ns, ⟨name, hname, rfl⟩, hns, rfl⟩, hfile,
      rfl⟩, hcontext, rfl⟩, hlabels, rfl⟩, honly, rfl⟩
    exact ⟨hname, hns, hfile, hcontext, hlabels, honly⟩
  · rintro ⟨hname, hns, hfile, hcontext, hlabels, honly⟩
    exact ⟨_, _, ⟨_, _, ⟨_, _, ⟨_, _, ⟨_, _, ⟨_, hname, rfl⟩, hns, rfl⟩, hfile, rfl⟩, hcontext,
      rfl⟩, hlabels, rfl⟩, honly, rfl⟩

theorem ofFields_eq_ok : ofFields homes fields = .ok c ↔
    isHomeless homes fields = false ∧ checkFields homes fields = .ok c := by
  rw [ofFields, ← Checked.lift_eq_ok]
  cases isHomeless homes fields <;> simp

/-- Where everything else passes, the two names decide. -/
theorem ofFields_eq {key : String} (hkey : key = "name" ∨ key = "namespace")
    (h : ofFields homes (others key fields) = .ok c) : ofFields homes fields =
      ((fun name ns => { c with name, ns }) <$> givenName fields <*> givenNs fields).lift := by
  obtain ⟨hhome, hcheck⟩ := ofFields_eq_ok.mp h
  obtain ⟨-, -, hfile, hcontext, hlabels, honly⟩ := checkFields_eq_ok.mp hcheck
  have hne {name : String} (hname : name ≠ "name") (hns : name ≠ "namespace") : name ≠ key := by
    rcases hkey with rfl | rfl
    · exact hname
    · exact hns
  have hmem : key ∈ fieldNames := by rcases hkey with rfl | rfl <;> decide
  rw [isHomeless, Json.field?_others_of_ne (hne (by decide) (by decide)), ← isHomeless] at hhome
  rw [Json.fieldOr_others_of_ne (hne (by decide) (by decide))] at hfile hcontext hlabels
  rw [Json.onlyFields_others hmem] at honly
  rw [ofFields, hhome, checkFields, hfile, hcontext, hlabels, honly, ← givenName, ← givenNs]
  cases givenName fields <;> cases givenNs fields <;>
    simp only [Functor.map, Seq.seq, Checked.findings, List.append_nil, List.nil_append,
      Bool.false_eq_true, if_false]

/-- A text is given for a field, beside others that make a configuration. -/
structure Given (homes : Homes) (key : String) (t : Text) (fields : List (String × Json))
    (c : Config) : Prop where
  others_eq : ofFields homes (others key fields) = .ok c
  field?_eq : Json.field? key fields = some (.str t)

theorem Given.ofFields_name {t : Text} (h : Given homes "name" t fields c) :
    ofFields homes fields = ((fun s => { c with name := s }) <$>
      nameText 253 isObjectName objectNamePattern ["name"] (.str t)).lift := by
  obtain ⟨-, hns, -⟩ := checkFields_eq_ok.mp (ofFields_eq_ok.mp h.others_eq).2
  rw [givenNs, Json.fieldOr_others_of_ne (by decide), ← givenNs] at hns
  rw [ofFields_eq (Or.inl rfl) h.others_eq, hns, givenName, Json.fieldOr_of_field? h.field?_eq]
  cases nameText 253 isObjectName objectNamePattern ["name"] (.str t) <;>
    simp only [Functor.map, Seq.seq, Checked.findings, List.append_nil]

theorem Given.ofFields_ns {t : Text} (h : Given homes "namespace" t fields c) :
    ofFields homes fields = ((fun s => { c with ns := s }) <$>
      nameText 63 isNamespace namespacePattern ["namespace"] (.str t)).lift := by
  obtain ⟨hname, -⟩ := checkFields_eq_ok.mp (ofFields_eq_ok.mp h.others_eq).2
  rw [givenName, Json.fieldOr_others_of_ne (by decide), ← givenName] at hname
  rw [ofFields_eq (Or.inr rfl) h.others_eq, hname, givenNs, Json.fieldOr_of_field? h.field?_eq]
  cases nameText 63 isNamespace namespacePattern ["namespace"] (.str t) <;> rfl

/-! ### Forms -/

/-- What may be wrong with a text that is to match a pattern. -/
def violations (most : ℕ) (ps : List Pattern) : List Violation :=
  [.notUnicode, .tooShort, .tooLong most, .mismatch (Pattern.wholeText ps)]

/-- A configuration is made exactly if the text is of a form, and it has the text as it is. -/
def Takes (homes : Homes) (fields : List (String × Json)) (t : Text) (put : String → Config)
    (Form : List Char → Prop) : Prop :=
  ∀ c', ofFields homes fields = .ok c' ↔
    ∃ s : String, t = Text.ofString s ∧ Form s.toList ∧ c' = put s

/-- Where no configuration is made, the field is reported once, and nothing else is. -/
def Reports (homes : Homes) (fields : List (String × Json)) (key : String) (most : ℕ)
    (ps : List Pattern) : Prop :=
  (∃ c', ofFields homes fields = .ok c') ∨
    ∃ v ∈ violations most ps, ofFields homes fields = .error (.invalid [⟨[key], v⟩])

section Form

variable {key default : String} {most : ℕ} {form : List Char → Bool}
  {Form : List Char → Prop} {ps : List Pattern} {t : Text} {put : String → Config}

theorem nameText_cases (most : ℕ) (form : List Char → Bool) (ps : List Pattern)
    (loc : List String) (t : Text) :
    (∃ s, nameText most form (Pattern.wholeText ps) loc (.str t) = .ok s) ∨
      ∃ v ∈ violations most ps,
        nameText most form (Pattern.wholeText ps) loc (.str t) = .fail loc v := by
  have hstring : (Json.str t).asString loc = t.string?.elim (.fail loc .notUnicode) .ok := rfl
  rw [nameText, hstring]
  cases t.string? with
  | none => exact Or.inr ⟨.notUnicode, by simp [violations], rfl⟩
  | some s =>
    simp only [Option.elim_some, Checked.andThen]
    split
    · exact Or.inr ⟨.tooShort, by simp [violations], rfl⟩
    · split
      · exact Or.inr ⟨.tooLong most, by simp [violations], rfl⟩
      · split
        · exact Or.inl ⟨s, rfl⟩
        · exact Or.inr ⟨.mismatch _, by simp [violations], rfl⟩

theorem reports_of_eq (hput : ofFields homes fields =
    (put <$> nameText most form (Pattern.wholeText ps) [key] (.str t)).lift) :
    Reports homes fields key most ps := by
  rw [Reports, hput]
  rcases nameText_cases most form ps [key] t with ⟨s, hs⟩ | ⟨v, hv, hfail⟩
  · rw [hs]
    exact Or.inl ⟨_, rfl⟩
  · rw [hfail]
    exact Or.inr ⟨v, hv, rfl⟩

variable (hnil : form [] = false) (hform : ∀ cs, Form cs ↔ cs.length ≤ most ∧ form cs)
include hnil hform

theorem nameText_str_eq_ok {pattern : String} {loc : List String} {s : String} :
    nameText most form pattern loc (.str t) = .ok s ↔ t = Text.ofString s ∧ Form s.toList := by
  rw [nameText_eq_ok, hform, String.length_toList, Json.str.injEq]
  refine and_congr_right' (and_iff_right_of_imp ?_)
  rintro ⟨-, hs⟩ rfl
  rw [String.toList_empty, hnil] at hs
  cases hs

theorem takes_of_eq {pattern : String} {loc : List String}
    (hput : ofFields homes fields = (put <$> nameText most form pattern loc (.str t)).lift) :
    Takes homes fields t put Form := by
  intro c'
  rw [hput, Checked.lift_eq_ok, Checked.map_eq_ok]
  simp only [nameText_str_eq_ok hnil hform, and_assoc, @eq_comm _ (put _)]

theorem form_of_fieldOr {pattern s : String} (hdefault : Form default.toList)
    (h : Json.fieldOr default (nameText most form pattern) key fields = .ok s) :
    Form s.toList := by
  rw [Json.fieldOr] at h
  split at h
  · obtain ⟨rfl, -⟩ := nameText_eq_ok.mp h
    exact ((nameText_str_eq_ok hnil hform).mp h).2
  · obtain rfl := Checked.ok.inj h
    exact hdefault

end Form

/-- The texts of another form are taken too, and no others, exactly where the two forms agree. -/
theorem Takes.iff_forall {t : Text} {put : String → Config} {Form Form' : List Char → Prop}
    (h : Takes homes fields t put Form) : Takes homes fields t put Form' ↔
      ∀ s : String, t = Text.ofString s → (Form' s.toList ↔ Form s.toList) := by
  constructor
  · rintro h' s rfl
    have htaken {P Q : List Char → Prop} (hP : Takes homes fields (Text.ofString s) put P)
        (hQ : Takes homes fields (Text.ofString s) put Q) (hs : P s.toList) : Q s.toList := by
      obtain ⟨s', hs', hQs, -⟩ := (hQ (put s)).mp ((hP (put s)).mpr ⟨s, rfl, hs, rfl⟩)
      rwa [Text.ofString_injective hs']
    exact ⟨htaken h' h, htaken h h'⟩
  · intro hsame c'
    rw [h c']
    exact exists_congr fun s => and_congr_right fun hs => and_congr_left' (hsame s hs).symm

/-! ### Names -/

open Domain

theorem isLabel_iff_isNamespace (cs : List Char) :
    IsLabel cs ↔ cs.length ≤ 63 ∧ isNamespace cs := by
  rw [isLabel_iff, isNamespace_iff]

theorem isObjectName_iff_length_le (cs : List Char) :
    IsObjectName cs ↔ cs.length ≤ 253 ∧ isObjectName cs := by
  rw [IsObjectName, isObjectName_iff]

/-- The names of every configuration have their forms, also where they are not given. -/
theorem names_of_ofFields (h : ofFields homes fields = .ok c) :
    IsLabel c.ns.toList ∧ IsObjectName c.name.toList := by
  obtain ⟨hname, hns, -⟩ := checkFields_eq_ok.mp (ofFields_eq_ok.mp h).2
  exact ⟨form_of_fieldOr rfl isLabel_iff_isNamespace
      ((isLabel_iff_isNamespace _).mpr (by decide)) hns,
    form_of_fieldOr rfl isObjectName_iff_length_le
      ((isObjectName_iff_length_le _).mpr (by decide)) hname⟩

/-- Every configuration has a label for its namespace and a text of the pattern for the name of the
object. Whatever else it is made from, a text that is given for one of them is taken exactly if it is
of this form and not too long; any other text is reported at its field. To take the names of domains
alone would make a difference for no text but those of the pattern in which a dot stands beside a dot
or a hyphen. -/
theorem takes_names {homes : Homes} {fields : List (String × Json)} {c : Config} {t : Text} :
    (ofFields homes fields = .ok c → IsLabel c.ns.toList ∧ IsObjectName c.name.toList) ∧
    (Given homes "namespace" t fields c →
      Takes homes fields t (fun s => { c with ns := s }) IsLabel ∧
      Reports homes fields "namespace" 63 Pattern.label) ∧
    (Given homes "name" t fields c →
      Takes homes fields t (fun s => { c with name := s }) IsObjectName ∧
      Reports homes fields "name" 253 Pattern.objectName ∧
      (Takes homes fields t (fun s => { c with name := s }) IsSubdomain ↔
        ∀ s : String, t = Text.ofString s → IsObjectName s.toList →
          ∀ pair ∈ barePairs, ¬ pair <:+: s.toList)) := by
  refine ⟨names_of_ofFields, fun h => ?_, fun h => ?_⟩
  · have hput := h.ofFields_ns
    rw [← Pattern.wholeText_label] at hput
    exact ⟨takes_of_eq rfl isLabel_iff_isNamespace hput, reports_of_eq hput⟩
  · have hput := h.ofFields_name
    rw [← Pattern.wholeText_objectName] at hput
    have htakes := takes_of_eq rfl isObjectName_iff_length_le hput
    refine ⟨htakes, reports_of_eq hput, htakes.iff_forall.trans ?_⟩
    refine forall_congr' fun s => forall_congr' fun _ => ?_
    rw [isSubdomain_iff, and_iff_left_iff_imp]

/-- A name with a dot is taken beside a context, and a namespace with one is not. -/
theorem takes_names_dotted :
    let homes : Homes := { own := "/root" }
    let named : List (String × Json) := [("name", .str "aws-auth.v2"), ("context", .str "prod")]
    let dotted : List (String × Json) := [("namespace", .str "kube.system")]
    Given homes "name" "aws-auth.v2" named { context := some "prod" } ∧
      ofFields homes named = .ok { name := "aws-auth.v2", context := some "prod" } ∧
      Takes homes named "aws-auth.v2" (fun s => { name := s, context := some "prod" })
        IsSubdomain ∧
      Given homes "namespace" "kube.system" dotted {} ∧
      ∃ v ∈ violations 63 Pattern.label,
        ofFields homes dotted = .error (.invalid [⟨["namespace"], v⟩]) := by
  intro homes named dotted
  have hnamed : Given homes "name" "aws-auth.v2" named { context := some "prod" } := ⟨rfl, rfl⟩
  have hdotted : Given homes "namespace" "kube.system" dotted {} := ⟨rfl, rfl⟩
  obtain ⟨htakes, -, hsubdomain⟩ := takes_names.2.2 hnamed
  obtain ⟨hlabel, hreports⟩ := takes_names.2.1 hdotted
  refine ⟨hnamed, (htakes _).mpr ⟨_, rfl, ?_, rfl⟩, hsubdomain.mpr ?_, hdotted,
    hreports.resolve_left ?_⟩
  · exact (isObjectName_iff_length_le _).mpr (by decide)
  · rintro s hs -
    rw [← Text.ofString_injective hs]
    decide
  · rintro ⟨c', hc'⟩
    obtain ⟨s, hs, hform, -⟩ := (hlabel c').mp hc'
    rw [← Text.ofString_injective hs] at hform
    exact absurd ((isLabel_iff_isNamespace _).mp hform) (by decide)

/-- Two dots in a row, with no part of a domain's name between them. -/
theorem not_takes_subdomain_dots :
    let homes : Homes := { own := "/root" }
    let fields : List (String × Json) := [("name", .str "a..b")]
    Given homes "name" "a..b" fields {} ∧ ofFields homes fields = .ok { name := "a..b" } ∧
      ¬ IsSubdomain "a..b".toList ∧
      ¬ Takes homes fields "a..b" (fun s => { name := s }) IsSubdomain := by
  intro homes fields
  have htaken : ofFields homes fields = .ok { name := "a..b" } := by
    decide +kernel
  have hdots : ¬ IsSubdomain "a..b".toList := fun h =>
    (isSubdomain_iff.mp h).2 ['.', '.'] (by decide) (by decide)
  refine ⟨⟨rfl, rfl⟩, htaken, hdots, fun htakes => ?_⟩
  obtain ⟨s, hs, hsubdomain, -⟩ := (htakes _).mp htaken
  obtain rfl := Text.ofString_injective hs
  exact hdots hsubdomain

end Config

end AuthMap
