import AuthMap.Proofs.Cli.ExitCode
import AuthMap.Proofs.Json.RoundTrip
import AuthMap.Proofs.Yaml.Value

/-! What the two formats of a listing say. Either is read back as the records that are listed, but
for a pair of halves in a text, which one of them joins. -/

namespace AuthMap

/-! ### Records as values -/

theorem map_eq_self_iff {α : Type} {f : α → α} {as : List α} :
    as.map f = as ↔ ∀ a ∈ as, f a = a := by
  rw [← List.map_inj_left, List.map_id']

namespace Identity

def texts (r : Identity) : List Text := r.arn :: r.username :: r.groups

/-- In no text of the record a high half is directly followed by a low one. -/
def Unpaired (r : Identity) : Prop := ∀ t ∈ r.texts, t.Unpaired

def paired (r : Identity) : Identity := ⟨r.arn.paired, r.username.paired, r.groups.map Text.paired⟩

def listed (rs : List Identity) : Json := .arr (rs.map toJson)

theorem paired_eq_self_iff {r : Identity} : r.paired = r ↔ r.Unpaired := by
  obtain ⟨arn, username, groups⟩ := r
  simp only [paired, Identity.mk.injEq, map_eq_self_iff, Unpaired, texts, List.forall_mem_cons,
    Text.paired_eq_self_iff]

theorem textual_listed (rs : List Identity) : (listed rs).Textual := by
  have htexts (ts : List Text) : Json.TextualItems (ts.map .str) := by
    induction ts with
    | nil => trivial
    | cons t ts ih => exact ⟨trivial, ih⟩
  have hitems : Json.TextualItems (rs.map toJson) := by
    induction rs with
    | nil => trivial
    | cons r rs ih => exact ⟨⟨trivial, trivial, htexts r.groups, trivial⟩, ih⟩
  exact hitems

theorem paired_listed (rs : List Identity) : (listed rs).paired = listed (rs.map paired) := by
  have htexts (ts : List Text) :
      Json.pairedItems (ts.map .str) = (ts.map Text.paired).map .str := by
    induction ts with
    | nil => rfl
    | cons t ts ih =>
      rw [List.map_cons, Json.pairedItems, ih]
      rfl
  have hrecord (r : Identity) : r.toJson.paired = r.paired.toJson := by
    simp only [toJson, fields, Json.texts, Json.paired, Json.pairedFields, htexts, paired]
  have hitems : Json.pairedItems (rs.map toJson) = (rs.map paired).map toJson := by
    induction rs with
    | nil => rfl
    | cons r rs ih => rw [List.map_cons, Json.pairedItems, ih, hrecord, List.map_cons, List.map_cons]
  rw [listed, Json.paired, hitems, listed]

theorem toJson_injective : Function.Injective toJson := by
  rintro ⟨arn, username, groups⟩ ⟨arn', username', groups'⟩ h
  simp only [toJson, fields, Json.texts, Json.obj.injEq, List.cons.injEq, Prod.mk.injEq,
    Json.str.injEq, Json.arr.injEq, true_and, and_true] at h
  obtain ⟨rfl, rfl, hgroups⟩ := h
  rw [List.map_injective_iff.mpr (fun _ _ => Json.str.inj) hgroups]

theorem listed_injective : Function.Injective listed := fun _ _ h =>
  List.map_injective_iff.mpr toJson_injective (Json.arr.inj h)

theorem listed_paired_iff {rs : List Identity} :
    listed (rs.map paired) = listed rs ↔ ∀ r ∈ rs, r.Unpaired := by
  simp only [listed_injective.eq_iff, map_eq_self_iff, paired_eq_self_iff]

end Identity

/-! ### Documents -/

open Yaml (Document Shows)

theorem holdsItems_of_forall₂ {α : Type} {d : Document} {value : α → Json} {p : α → Nat → Prop}
    (hp : ∀ a i, p a i → d.Holds (value a) i) {as : List α} {is : List Nat}
    (h : List.Forall₂ p as is) : Document.HoldsItems d (as.map value) is := by
  induction h with
  | nil => rfl
  | @cons a i as is ha _ ih => exact ⟨i, is, rfl, hp a i ha, ih⟩

theorem holds_of_storedAt {d : Document} {r : Identity} {i : Nat} (h : r.StoredAt d "arn" i) :
    d.Holds r.toJson i := by
  obtain ⟨k₁, arn, k₂, username, k₃, groups, items, hcell, hk₁, harn, hk₂, husername, hk₃,
    hgroups, hitems⟩ := h
  have hgroups' : d.Holds (Json.texts r.groups) groups :=
    ⟨items, hgroups, holdsItems_of_forall₂ (fun _ _ ht => ht) hitems⟩
  exact ⟨_, hcell, k₁, arn, _, rfl, hk₁, harn, k₂, username, _, rfl, hk₂, husername,
    k₃, groups, _, rfl, hk₃, hgroups', rfl⟩

theorem forall_isStored_listed (rs : List Identity) :
    ∀ fs ∈ rs.map (Identity.written "arn"), Yaml.IsStored fs := by
  intro fs hfs
  obtain ⟨r, -, rfl⟩ := List.mem_map.mp hfs
  exact isStored_written_of_name ⟨by simp, by simp, by simp⟩ rfl (by decide) (by decide) r

/-! ### Listings -/

namespace Cli

open Command (listing selected)

theorem shows_listing (rs : List Identity) : Shows (listing .yaml rs) (Identity.listed rs) := by
  obtain ⟨d, items, hd, hroot, hitems⟩ := loads_of_isStored (forall_isStored_listed rs)
  refine ⟨d, hd, items, hroot, holdsItems_of_forall₂ ?_ hitems⟩
  exact fun _ _ => holds_of_storedAt

theorem ofString?_listing (rs : List Identity) :
    Json.ofString? (listing .json rs) = some (Identity.listed (rs.map Identity.paired)) := by
  have hgap : Json.Blank ['\n'] := by simp [Json.Blank, Json.isSpace]
  rw [listing, Json.ofString?, String.toList_append, Json.pretty, String.toList_ofList,
    ← Identity.paired_listed]
  exact Json.ofChars?_text Json.isBlank_spread (Identity.textual_listed rs) hgap

/-- There is nothing in a listing that a terminal would take for a control sequence. -/
theorem ofText_listing (format : Format) (rs : List Identity) :
    Report.ofText (listing format rs) = { exitCode := .success, output := listing format rs } := by
  apply Report.ofText_ofString
  cases format with
  | json =>
    rw [listing, String.toList_append, Json.pretty, String.toList_ofList, List.mem_append, not_or]
    exact ⟨Json.escape_notMem_text Json.isBlank_spread _ (Identity.textual_listed rs) 0,
      by decide⟩
  | yaml =>
    intro hmem
    have hprinted := Yaml.all_isPrinted_printRecords
      fun fs hfs => (forall_isStored_listed rs fs hfs).record
    exact absurd (List.all_eq_true.mp hprinted _ hmem) (by decide)

section Runs

variable {connect : Gateway → Except StoreError Gateway} {config : Config} {level : Level}
  {g : Gateway} {σ σ' : Session} {r : Resource} {rs : List Identity}

theorem execute_get (hfetch : g.fetch σ = .ok r σ') {arn : Option Text}
    (hrs : selected arn r = .ok rs) (format : Format) :
    (Command.get arn format).execute g σ = .ok (listing format rs) σ' := by
  rw [Command.execute, Work.bind_of_ok hfetch, hrs]
  rfl

theorem selected_eq_ok {arn : Option Text} (h : arn = none ∧ r.identities = .ok rs ∨
    ∃ a, arn = some a ∧ a ≠ [] ∧ r.find (.text a) = .ok rs) : selected arn r = .ok rs := by
  rcases h with ⟨rfl, h⟩ | ⟨a, rfl, hne, h⟩
  · exact h
  · unfold selected
    split
    · next heq => cases heq
    · next heq => exact absurd (Option.some.inj heq) hne
    · next heq =>
      obtain rfl := Option.some.inj heq
      exact h

/-- A listing in YAML shows the records that are listed, and one in JSON the same with the pairs of
halves in their texts joined. So there is a value that both say, which is that of the records,
exactly if no text has such a pair. -/
theorem listings_agree_iff (hg : connect { config } = .ok g) (hfetch : g.fetch σ = .ok r σ')
    {arn : Option Text} (hrs : arn = none ∧ r.identities = .ok rs ∨
      ∃ a, arn = some a ∧ a ≠ [] ∧ r.find (.text a) = .ok rs) :
    let report (format : Format) :=
      (Plan.report connect (.run config level (.get arn format)) σ).1
    (∀ format, (report format).exitCode = .success) ∧
      Shows (report .yaml).output (Identity.listed rs) ∧
      Json.ofString? (report .json).output = some (Identity.listed (rs.map Identity.paired)) ∧
      ∀ j, Json.ofString? (report .json).output = some j ∧ Shows (report .yaml).output j ↔
        j = Identity.listed rs ∧ ∀ r ∈ rs, r.Unpaired := by
  intro report
  have hreport (format : Format) :
      report format = { exitCode := .success, output := listing format rs } := by
    rw [← ofText_listing format rs]
    exact report_of_ok ((connected_of_ok hg).trans
      (execute_get hfetch (selected_eq_ok hrs) format))
  have hyaml : Shows (report .yaml).output (Identity.listed rs) := by
    rw [hreport]
    exact shows_listing rs
  have hjson : Json.ofString? (report .json).output =
      some (Identity.listed (rs.map Identity.paired)) := by
    rw [hreport]
    exact ofString?_listing rs
  refine ⟨fun format => by rw [hreport], hyaml, hjson, fun j => ?_⟩
  constructor
  · rintro ⟨hj, hshows⟩
    obtain rfl := hshows.unique hyaml
    exact ⟨rfl, Identity.listed_paired_iff.mp (Option.some.inj (hjson.symm.trans hj))⟩
  · rintro ⟨rfl, hunpaired⟩
    exact ⟨hjson.trans (congrArg some (Identity.listed_paired_iff.mpr hunpaired)), hyaml⟩

/-- A name that is no ARN, with a character beyond the basic plane, and a word that stands for a
truth value without quotes. -/
theorem listings_agree_iff_scripts :
    let m : ConfigMap := {
      name := .str objectName, ns := .str objectNamespace, uid := .str "u", version := .str "1"
      data := .ofTexts [(rolesKey, "- rolearn: \"\\U0001F600 \\xe9\"\n  username: 'yes'\n")] }
    let σ : Session := { cluster := ({} : Cluster).seed objectNamespace objectName m }
    let output (format : Format) :=
      (Plan.report (Gateway.connectFrom {}) (.run {} .warning (.get none format)) σ).1.output
    ∃ j, Json.ofString? (output .json) = some j ∧ Shows (output .yaml) j := by
  intro m σ output
  let g : Gateway := { client := true, api := true }
  let r : Resource := {
    uid := "u", version := some "1"
    data := [(rolesKey, "- rolearn: \"\\U0001F600 \\xe9\"\n  username: 'yes'\n")] }
  let rs : List Identity := [{ arn := "😀 é", username := "yes" }]
  have hg : Gateway.connectFrom {} { config := {} } = .ok g := rfl
  have hreads : g.reads σ.cluster = .ok r := rfl
  obtain ⟨σ', hfetch, -⟩ := Gateway.fetch_reads (g := g) (σ := σ) rfl rfl
  rw [hreads] at hfetch
  have hrs : r.identities = .ok rs := by decide +kernel
  have hself : ∀ r ∈ rs, r.paired = r := by decide +kernel
  obtain ⟨-, -, -, hagree⟩ :=
    @listings_agree_iff _ {} .warning g σ σ' r rs hg hfetch none (Or.inl ⟨rfl, hrs⟩)
  exact ⟨_, (hagree _).mpr ⟨rfl, fun r hr => Identity.paired_eq_self_iff.mp (hself r hr)⟩⟩

/-- Two escapes name the halves of a pair. -/
theorem not_listings_agree_pair :
    let m : ConfigMap := {
      name := .str objectName, ns := .str objectNamespace, uid := .str "u", version := .str "1"
      data := .ofTexts [(rolesKey,
        "- rolearn: arn:aws:iam::1:role/r\n  username: \"\\ud83d\\ude00\"\n")] }
    let σ : Session := { cluster := ({} : Cluster).seed objectNamespace objectName m }
    let output (format : Format) :=
      (Plan.report (Gateway.connectFrom {}) (.run {} .warning (.get none format)) σ).1.output
    ¬ ∃ j, Json.ofString? (output .json) = some j ∧ Shows (output .yaml) j := by
  intro m σ output
  let rs : List Identity :=
    [{ arn := "arn:aws:iam::1:role/r", username := [.half 0x3D, .half 0x600] }]
  have hjson : output .json = listing .json rs := by decide +kernel
  have hyaml : output .yaml = listing .yaml rs := by decide +kernel
  rintro ⟨j, hj, hshows⟩
  rw [hjson, ofString?_listing] at hj
  rw [hyaml] at hshows
  have hsame := (Option.some.inj hj).trans (hshows.unique (shows_listing rs))
  have hpaired : rs.map Identity.paired ≠ rs := by decide +kernel
  exact hpaired (Identity.listed_injective hsame)

end Runs

end Cli

end AuthMap
