import AuthMap.Proofs.Cluster.Writes
import AuthMap.Proofs.Store.Halves

/-! The frame of an object: all that no store owns. Of an object that the cluster keeps it is all
but the version and the texts of the mapping, where an empty collection counts as none. -/

namespace AuthMap

def mappingKeys : List String := [rolesKey, usersKey, accountsKey]

theorem Half.mem_mappingKeys {k : Half} {key : String} (h : key ∈ k.keys) : key ∈ mappingKeys := by
  revert key
  cases k <;> decide

/-! ### Texts outside the mapping -/

namespace Data

/-- The texts that are not part of the mapping. -/
def foreign (d : Data) : Data := d.filter fun e => e.1 ∉ mappingKeys

theorem foreign_set {key : String} (h : key ∈ mappingKeys) (text : String) (d : Data) :
    (set key text d).foreign = d.foreign := by
  induction d with
  | nil => simp [set, foreign, h]
  | cons e d ih =>
    unfold set
    split
    · next he => simp [foreign, h, he]
    · rw [foreign, foreign, List.filter_cons, List.filter_cons, ← foreign, ← foreign, ih]

theorem foreign_update {new : Data} (h : ∀ e ∈ new, e.1 ∈ mappingKeys) (d : Data) :
    (d.update new).foreign = d.foreign := by
  induction new generalizing d with
  | nil => rfl
  | cons e new ih =>
    rw [← foreign_set (h e List.mem_cons_self) e.2 d]
    exact ih (fun x hx => h x (List.mem_cons_of_mem _ hx)) _

end Data

namespace Json

theorem orNull_of_isEmpty {j : Json} (h : j.isEmpty = true) : Cluster.orNull j = .null := by
  rw [Cluster.orNull, orEmpty, if_pos h]

theorem orNull_of_not_isEmpty {j : Json} (h : ¬ j.isEmpty = true) : Cluster.orNull j = j := by
  rw [Cluster.orNull, orEmpty, if_neg h]

/-- What stands in the place of an empty value does not depend on which empty value it is. -/
theorem orEmpty_orNull (j other : Json) : (Cluster.orNull j).orEmpty other = j.orEmpty other := by
  by_cases h : j.isEmpty = true
  · rw [orNull_of_isEmpty h, orEmpty, orEmpty, if_pos h]
    rfl
  · rw [orNull_of_not_isEmpty h]

theorem orNull_orNull (j : Json) : Cluster.orNull (Cluster.orNull j) = Cluster.orNull j :=
  orEmpty_orNull j .null

/-- The fields that are not part of the mapping. -/
def foreign : Json → Json
  | .obj fields => Cluster.orNull (.obj (fields.filter fun f => f.1 ∉ mappingKeys))
  | j => Cluster.orNull j

theorem foreign_orNull (j : Json) : (Cluster.orNull j).foreign = j.foreign := by
  by_cases h : j.isEmpty = true
  · have hnull := orNull_of_isEmpty h
    rw [hnull]
    cases j with
    | obj fields =>
      cases fields with
      | nil => rfl
      | cons f fs => cases h
    | _ => exact hnull.symm
  · rw [orNull_of_not_isEmpty h]

theorem foreign_ofTexts (d : Data) : (ofTexts d).foreign = Cluster.orNull (ofTexts d.foreign) := by
  rw [ofTexts, foreign, ofTexts, Data.foreign, List.filter_map]
  rfl

end Json

/-! ### Frames -/

/-- A held object without its version and the texts of the mapping. -/
def Resource.frame (r : Resource) : Resource := { r with version := none, data := r.data.foreign }

theorem Resource.frame_withData {k : Half} {new : Data} (h : ∀ e ∈ new, e.1 ∈ k.keys)
    (r : Resource) : (r.withData new).frame = r.frame := by
  have hforeign := Data.foreign_update (fun e he => Half.mem_mappingKeys (h e he)) r.data
  simp only [frame, withData, hforeign]

/-- A resource as an object, of which nothing is left out. -/
def Resource.object (r : Resource) : ConfigMap where
  name := .str r.name
  ns := .str r.ns
  uid := .str r.uid
  version := .ofOption r.version
  labels := .ofTexts r.labels
  annotations := .ofTexts r.annotations
  finalizers := .strings r.finalizers
  owners := .arr r.owners
  data := .ofTexts r.data

namespace ConfigMap

variable {m : ConfigMap} {r : Resource}

/-- An object in which no collection is empty. -/
def plain (m : ConfigMap) : ConfigMap := { Cluster.normalized m with data := Cluster.orNull m.data }

/-- An object of the cluster without its version and the texts of the mapping. -/
def frame (m : ConfigMap) : ConfigMap := { m.plain with version := .null, data := m.data.foreign }

/-- Every part of the object is of its type, and the object has a UID. -/
structure Shows (m : ConfigMap) (r : Resource) : Prop where
  uid_ne : r.uid ≠ ""
  plain : m.plain = r.object.plain

theorem frame_plain (m : ConfigMap) : m.plain.frame = m.frame := by
  simp only [plain, frame, Cluster.normalized, Json.orNull_orNull, Json.foreign_orNull]

theorem frame_object (r : Resource) : r.object.frame = r.frame.object.plain := by
  simp only [frame, plain, Cluster.normalized, ConfigMap.mk.injEq]
  exact ⟨rfl, rfl, rfl, rfl, rfl, rfl, rfl, rfl, Json.foreign_ofTexts r.data⟩

theorem Shows.frame_eq (h : m.Shows r) : m.frame = r.frame.object.plain := by
  rw [← frame_plain, h.plain, frame_plain, frame_object]

theorem Shows.uid_eq (h : m.Shows r) : m.uid = .str r.uid := congrArg uid h.plain

/-! ### Objects as they are written -/

/-- What is left out for being empty counts as none. -/
theorem plain_toConfigMap (hr : r.uid ≠ "") : r.toConfigMap.plain = r.object.plain := by
  have hexists : r.exists? = true := decide_eq_true hr
  simp only [plain, Cluster.normalized, Resource.toConfigMap, Resource.object, hexists, if_true,
    ConfigMap.mk.injEq, true_and, and_true]
  refine ⟨?_, ?_, ?_, ?_⟩
  · cases r.labels <;> rfl
  · cases r.annotations <;> rfl
  · cases r.finalizers <;> rfl
  · cases r.owners <;> rfl

theorem plain_normalized (m : ConfigMap) : (Cluster.normalized m).plain = m.plain := by
  simp only [plain, Cluster.normalized, Json.orNull_orNull]

theorem ofConfigMap_plain (m : ConfigMap) :
    Resource.ofConfigMap m.plain = Resource.ofConfigMap m := by
  simp only [Resource.ofConfigMap, plain, Cluster.normalized, Json.orEmpty_orNull]

theorem Shows.ofConfigMap_eq (h : m.Shows r) : Resource.ofConfigMap m = .ok r := by
  have hexists : r.exists? = true := decide_eq_true h.uid_ne
  have huid : ((Json.str r.uid).orEmpty (.str "")).asString ["uid"] = .ok r.uid := by
    rw [Json.orEmpty_str, Json.asString_str]
  rw [← ofConfigMap_plain, h.plain, ← plain_toConfigMap h.uid_ne, ← plain_normalized,
    ofConfigMap_plain]
  refine Eq.trans (congrArg _ ?_) (Resource.ofConfigMap_written r huid r.version)
  simp only [Cluster.normalized, Resource.toConfigMap, hexists, if_true]

/-- A write at a UID makes an object that has the frame of what is written, and that UID. -/
theorem exists_shows_of_write {c c' : Cluster} {u : String} (hu : u ≠ "")
    (hwrite : c.write r.ns r.name (.str u) r.toConfigMap = (m, c')) :
    ∃ r', m.Shows r' ∧ r'.frame = { r.frame with uid := u } := by
  have hexists : (c.written r u).exists? = true := decide_eq_true hu
  obtain ⟨rfl, -⟩ := Prod.mk.inj hwrite
  refine ⟨c.written r u, ⟨hu, ?_⟩, rfl⟩
  rw [← plain_toConfigMap hu]
  simp only [plain, Cluster.normalized, Json.orNull_orNull]
  simp only [Resource.toConfigMap, hexists, if_true]
  rfl

end ConfigMap

end AuthMap
