import AuthMap.Cluster
import AuthMap.Proofs.Session
import AuthMap.Proofs.Yaml.RoundTrip

/-! A resource is read back from the object that it was written as, with the UID and the version
that the cluster has put there. -/

namespace AuthMap

/-! ### Checks that pass -/

namespace Checked

variable {α β : Type}

theorem map_eq_ok {f : α → β} {x : Checked α} {b : β} :
    f <$> x = .ok b ↔ ∃ a, x = .ok a ∧ f a = b := by
  cases x <;> simp [Functor.map]

theorem seq_eq_ok {f : Checked (α → β)} {x : Checked α} {b : β} :
    f <*> x = .ok b ↔ ∃ g a, f = .ok g ∧ x = .ok a ∧ g a = b := by
  cases f <;> cases x <;> simp [Seq.seq]

theorem lift_eq_ok {x : Checked α} {a : α} : x.lift = .ok a ↔ x = .ok a := by
  cases x <;> simp [lift]

theorem all_map {γ : Type} {check : β → Checked γ} {f : α → β} {g : α → γ}
    (h : ∀ a, check (f a) = .ok (g a)) (as : List α) : all check (as.map f) = .ok (as.map g) := by
  induction as with
  | nil => rfl
  | cons a as ih =>
    rw [List.map_cons, all, h, ih]
    rfl

end Checked

/-! ### Parts of an object -/

namespace Json

theorem orEmpty_str (s : String) : (Json.str s).orEmpty (.str "") = .str s := by
  unfold orEmpty
  split
  · next h =>
    cases ht : Text.ofString s with
    | nil => rfl
    | cons p t => simp [ht, isEmpty] at h
  · rfl

@[simp]
theorem asString_str (loc : List String) (s : String) : (Json.str s).asString loc = .ok s := by
  simp [asString, asText, Checked.andThen, Text.string?_ofString]

theorem str_asString_eq_ok {loc : List String} {s s' : String}
    (h : (Json.str s).asString loc = .ok s') : s = s' := by
  rw [asString_str] at h
  exact Checked.ok.inj h

theorem asStringOrNull_ofOption (loc : List String) (s : Option String) :
    (ofOption s).asStringOrNull loc = .ok s := by
  cases s with
  | none => rfl
  | some s =>
    change some <$> (Json.str s).asString loc = .ok (some s)
    rw [asString_str]
    rfl

theorem asString_eq_ok {loc : List String} {j : Json} {s : String} (h : j.asString loc = .ok s) :
    j = .str s := by
  cases j with
  | str t =>
    cases ht : t.string? with
    | none => simp [asString, asText, Checked.andThen, ht, Checked.fail] at h
    | some s' =>
      have hs : s' = s := by simpa [asString, asText, Checked.andThen, ht] using h
      rw [Text.ofString_of_string? ht, hs]
  | _ => simp [asString, asText, Checked.andThen, Checked.fail] at h

theorem asStringOrNull_eq_ok {loc : List String} {j : Json} {s : Option String}
    (h : j.asStringOrNull loc = .ok s) : j = ofOption s := by
  cases j with
  | null =>
    obtain rfl : none = s := Checked.ok.inj h
    rfl
  | _ =>
    obtain ⟨s', hs', rfl⟩ := Checked.map_eq_ok.mp h
    exact asString_eq_ok hs'

def pairTexts (fields : List (String × String)) : List (Json × Json) :=
  fields.map fun f => (.str f.1, .str f.2)

theorem asStringPairs_pairTexts (loc : List String) (fields : List (String × String)) :
    asStringPairs loc (pairTexts fields) = .ok fields := by
  have h : Checked.all (fun p : Json × Json =>
      Prod.mk <$> p.1.asString (loc ++ [p.1.keyName, "[key]"])
        <*> p.2.asString (loc ++ [p.1.keyName])) (pairTexts fields) = .ok (fields.map id) := by
    refine Checked.all_map ?_ fields
    intro f
    rw [asString_str, asString_str]
    rfl
  rw [List.map_id] at h
  exact h

theorem asStrings_strings (loc : List String) (ss : List String) :
    (strings ss).asStrings loc = .ok ss := by
  have hitems : (ss.map fun s : String => Json.str s).zipIdx =
      ss.zipIdx.map fun e => (Json.str e.1, e.2) := List.zipIdx_map
  have h : Checked.all (fun e : Json × Nat => e.1.asString (loc ++ [toString e.2]))
      (ss.map fun s : String => Json.str s).zipIdx = .ok (ss.zipIdx.map (·.1)) := by
    rw [hitems]
    refine Checked.all_map ?_ _
    intro e
    exact asString_str _ e.1
  rw [List.zipIdx_map_fst] at h
  simp only [asStrings, asListOf, strings, texts, asList, Checked.andThen, List.map_map]
  exact h

theorem pairs_ofTexts (fields : List (String × String)) :
    (ofTexts fields).pairs = .ok (pairTexts fields) := by
  simp [ofTexts, pairs, pairTexts]

end Json

/-! ### Objects and resources -/

namespace Resource

theorem ofConfigMap_eq_ok {m : ConfigMap} {r : Resource} (h : ofConfigMap m = .ok r) :
    m.name.asString ["name"] = .ok r.name ∧ m.ns.asString ["namespace"] = .ok r.ns ∧
      (m.uid.orEmpty (.str "")).asString ["uid"] = .ok r.uid ∧
      m.version.asStringOrNull ["resource_version"] = .ok r.version := by
  simp only [ofConfigMap, Except.bind_eq_ok, Checked.lift_eq_ok, Checked.seq_eq_ok,
    Checked.map_eq_ok] at h
  obtain ⟨-, -, -, -, -, -, -, -, -, -, g₈, data, ⟨g₇, finalizers, ⟨g₆, annotations, ⟨g₅, labels,
    ⟨g₄, version, ⟨g₃, uid, ⟨g₂, ns, ⟨name, hname, rfl⟩, hns, rfl⟩, huid, rfl⟩, hversion, rfl⟩, -,
    rfl⟩, -, rfl⟩, -, rfl⟩, -, rfl⟩ := h
  exact ⟨hname, hns, huid, hversion⟩

section Parts

variable (r : Resource)

/-- A dictionary is read back, also when it is left out for being empty. -/
theorem pairs_leftOut (fields : List (String × String)) :
    ((Cluster.orNull (match fields with | [] => .null | fs => .ofTexts fs)).orEmpty
      (.obj [])).pairs = .ok (Json.pairTexts fields) := by
  cases fields with
  | nil => rfl
  | cons f fs => exact Json.pairs_ofTexts (f :: fs)

theorem labels_toConfigMap :
    ((Cluster.orNull r.toConfigMap.labels).orEmpty (.obj [])).pairs =
      .ok (Json.pairTexts r.labels) := pairs_leftOut r.labels

theorem annotations_toConfigMap :
    ((Cluster.orNull r.toConfigMap.annotations).orEmpty (.obj [])).pairs =
      .ok (Json.pairTexts r.annotations) := pairs_leftOut r.annotations

theorem finalizers_toConfigMap :
    ((Cluster.orNull r.toConfigMap.finalizers).orEmpty (.arr [])).elements =
      .ok (r.finalizers.map fun s : String => .str s) := by
  unfold toConfigMap
  cases r.finalizers with
  | nil => rfl
  | cons f fs =>
    change Except.ok (((f :: fs).map Text.ofString).map Json.str) = _
    rw [List.map_map]
    rfl

theorem owners_toConfigMap :
    ((Cluster.orNull r.toConfigMap.owners).orEmpty (.arr [])).elements = .ok r.owners := by
  unfold toConfigMap
  cases r.owners <;> rfl

theorem data_toConfigMap :
    (r.toConfigMap.data.orEmpty (.obj [])).pairs = .ok (Json.pairTexts r.data) := by
  unfold toConfigMap
  cases r.data with
  | nil => rfl
  | cons f fs => exact Json.pairs_ofTexts (f :: fs)

end Parts

/-- An object as the cluster writes it holds the resource that was given, at the UID and the
version that the cluster has put there. -/
theorem ofConfigMap_written (r : Resource) {uid : Json} {u : String}
    (huid : (uid.orEmpty (.str "")).asString ["uid"] = .ok u) (v : Option String) :
    ofConfigMap { Cluster.normalized r.toConfigMap with
      ns := .str r.ns, uid, version := .ofOption v } = .ok { r with uid := u, version := v } := by
  have hfinalizers :
      (Json.arr (r.finalizers.map fun s : String => .str s)).asStrings ["finalizers"] =
        .ok r.finalizers := by
    have h := Json.asStrings_strings ["finalizers"] r.finalizers
    rwa [Json.strings, Json.texts, List.map_map] at h
  have hname : r.toConfigMap.name.asString ["name"] = .ok r.name := Json.asString_str _ _
  have hversion := Json.asStringOrNull_ofOption ["resource_version"] v
  simp only [ofConfigMap, Cluster.normalized, labels_toConfigMap, annotations_toConfigMap,
    finalizers_toConfigMap, owners_toConfigMap, data_toConfigMap, ShapeFault.lift, bind,
    Except.bind, hname, Json.asString_str, huid, hversion, Json.asStringPairs_pairTexts,
    hfinalizers]
  rfl

end Resource

end AuthMap
