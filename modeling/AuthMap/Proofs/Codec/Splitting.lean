import AuthMap.Proofs.Codec.RoundTrip
import AuthMap.Proofs.Session

/-! Records are split by kind before they are written, and each is asked for its kind again when
its entry is written. The two agree: what the split lets through is written, so that the error of
an encoding is always that of the split. -/

namespace AuthMap

open Yaml (Document)

/-! ### Records that are to be written -/

namespace Identity

variable {r bad : Identity} {rs : List Identity}

/-- Too few parts, or a resource that is not exactly of one of the two types. -/
def Unmapped (r : Identity) : Prop :=
  r.arn.count colon < 5 ∨
    ∃ a, Arn.ofText? r.arn = some a ∧ a.resourceType ≠ "role" ∧ a.resourceType ≠ "user"

theorem unmapped_iff : r.Unmapped ↔ r.kind = .unknown := by
  cases ha : Arn.ofText? r.arn with
  | none => simp [Unmapped, ← Arn.ofText?_eq_none_iff, ha, kind, Arn.kindOf]
  | some a =>
    have hcount : ¬ r.arn.count colon < 5 := by simp [← Arn.ofText?_eq_none_iff, ha]
    have hkind : r.kind = a.kind := Arn.kindOf_of_ofText? ha
    have hunknown : a.kind = .unknown ↔ a.resourceType ≠ "role" ∧ a.resourceType ≠ "user" := by
      unfold Arn.kind
      split
      · simp_all
      · split <;> simp_all
    simp only [Unmapped, hcount, ha, hkind, hunknown, false_or, Option.some.injEq, exists_eq_left']

/-- The first of some records that is neither a role nor a user. -/
def IsFirstStray (bad : Identity) (rs : List Identity) : Prop :=
  ∃ before after, rs = before ++ bad :: after ∧ (∀ x ∈ before, x.kind ≠ .unknown) ∧
    bad.kind = .unknown

def unfiled (bad : Identity) : StoreError :=
  .unencodable (rolesKey ++ "/" ++ usersKey) bad.arn
    "identity is neither an IAM role nor an IAM user"

theorem IsFirstStray.mem (h : bad.IsFirstStray rs) : bad ∈ rs := by
  obtain ⟨before, after, rfl, -⟩ := h
  simp

theorem IsFirstStray.kind (h : bad.IsFirstStray rs) : bad.kind = .unknown := by
  obtain ⟨before, after, -, -, hkind⟩ := h
  exact hkind

/-- A role or a user at the end does not matter. -/
theorem IsFirstStray.of_append {record : Identity} (h : bad.IsFirstStray (rs ++ [record]))
    (hrecord : record.kind ≠ .unknown) : bad.IsFirstStray rs := by
  obtain ⟨before, after, hrs, hbefore, hkind⟩ := h
  rcases List.eq_nil_or_concat after with rfl | ⟨middle, last, rfl⟩
  · obtain ⟨-, hlast⟩ := List.append_inj' hrs rfl
    cases hlast
    exact absurd hkind hrecord
  · rw [List.concat_eq_append, ← List.cons_append, ← List.append_assoc] at hrs
    exact ⟨before, middle, (List.append_inj' hrs rfl).1, hbefore, hkind⟩

end Identity

theorem split_cases (rs : List Identity) :
    (∀ x ∈ rs, x.kind ≠ .unknown) ∧
        split rs = .ok (rs.filter fun r => r.kind = .role, rs.filter fun r => r.kind = .user) ∨
      ∃ bad : Identity, bad.IsFirstStray rs ∧ split rs = .error bad.unfiled := by
  cases hfind : rs.find? fun x => x.kind = .unknown with
  | none =>
    refine Or.inl ⟨fun x hx => ?_, by simp only [split, hfind]⟩
    simpa using List.find?_eq_none.mp hfind x hx
  | some bad =>
    obtain ⟨hbad, before, after, hkept, hbefore⟩ := List.find?_eq_some_iff_append.mp hfind
    refine Or.inr ⟨bad, ⟨before, after, hkept, ?_, by simpa using hbad⟩, ?_⟩
    · intro x hx
      simpa using hbefore x hx
    · simp only [split, hfind]
      rfl

/-! ### Values of a document -/

mutual

/-- A document has a plain value at a number. -/
def Json.ShownAt (d : Document) : Json → Nat → Prop
  | .null, i => d.cell i = .scalar .null
  | .bool b, i => d.cell i = .scalar (.bool b)
  | .int n, i => d.cell i = .scalar (.int n)
  | .real x, i => d.cell i = .scalar (.real x)
  | .str t, i => d.cell i = .scalar (.text t)
  | .arr items, i => ∃ is, d.cell i = .list (is.map .cell) ∧ Json.ItemsShownAt d items is
  | .obj fields, i => ∃ es, d.cell i = .map es ∧ Json.FieldsShownAt d fields es

def Json.ItemsShownAt (d : Document) : List Json → List Nat → Prop
  | [], is => is = []
  | j :: js, is => ∃ i rest, is = i :: rest ∧ Json.ShownAt d j i ∧ Json.ItemsShownAt d js rest

def Json.FieldsShownAt (d : Document) : List (String × Json) → List (Nat × Nat) → Prop
  | [], es => es = []
  | (key, j) :: fs, es => ∃ k i rest, es = (k, i) :: rest ∧
      d.cell k = .scalar (.text (Text.ofString key)) ∧ Json.ShownAt d j i ∧
        Json.FieldsShownAt d fs rest

end

def LoadsTo (j : Json) (text : String) : Prop :=
  ∃ d, Document.ofChars text.toList = .ok (some d) ∧ j.ShownAt d d.root

theorem itemsShownAt_of_forall₂ {α : Type} {d : Document} {f : α → Json} {p : α → Nat → Prop}
    (hp : ∀ x i, p x i → (f x).ShownAt d i) {xs : List α} {is : List Nat}
    (h : List.Forall₂ p xs is) : Json.ItemsShownAt d (xs.map f) is := by
  induction h with
  | nil => rfl
  | cons hx _ ih => exact ⟨_, _, rfl, hp _ _ hx, ih⟩

theorem Identity.StoredAt.shownAt {d : Document} {arnKey : String} {r : Identity} {i : Nat}
    (h : r.StoredAt d arnKey i) : (Json.obj (r.fields arnKey)).ShownAt d i := by
  obtain ⟨k₁, arn, k₂, username, k₃, groups, items, hcell, hk₁, harn, hk₂, husername, hk₃, hgroups,
    hitems⟩ := h
  have hmembers : (Json.texts r.groups).ShownAt d groups :=
    ⟨items, hgroups, itemsShownAt_of_forall₂ (fun _ _ ht => ht) hitems⟩
  exact ⟨_, hcell, k₁, arn, _, rfl, hk₁, harn, k₂, username, _, rfl, hk₂, husername,
    k₃, groups, _, rfl, hk₃, hmembers, rfl⟩

theorem Loads.loadsTo {arnKey text : String} {rs : List Identity} (h : Loads arnKey rs text) :
    LoadsTo (.arr (rs.map fun r => .obj (r.fields arnKey))) text := by
  obtain ⟨d, items, hd, hroot, hrecords⟩ := h
  exact ⟨d, hd, items, hroot, itemsShownAt_of_forall₂ (fun _ _ hr => hr.shownAt) hrecords⟩

/-! ### What is written -/

/-- The list under a key has the entries of the records of one kind, in order. -/
structure FiledUnder (key arnKey : String) (k : Kind) (rs : List Identity) (data : Data) :
    Prop where
  entry : ∀ r ∈ rs, r.kind = k → r.toMapping = .ok (.obj (r.fields arnKey))
  text : ∃ text, data.get? key = some text ∧
    LoadsTo (.arr ((rs.filter fun r => r.kind = k).map fun r => .obj (r.fields arnKey))) text

theorem filedUnder_identityTexts (rs : List Identity) :
    let data :=
      identityTexts (rs.filter fun r => r.kind = .role) (rs.filter fun r => r.kind = .user)
    FiledUnder rolesKey "rolearn" .role rs data ∧ FiledUnder usersKey "userarn" .user rs data := by
  have hentry {k : Kind} (hk : k ≠ .unknown) : ∀ r ∈ rs, r.kind = k →
      r.toMapping = .ok (.obj (r.fields (Identity.arnKey k))) := by
    rintro r - rfl
    exact toMapping_of_kind hk
  exact ⟨⟨hentry (by decide), _, rfl, (loads_printRecords (Or.inl rfl) _).loadsTo⟩,
    ⟨hentry (by decide), _, rfl, (loads_printRecords (Or.inr rfl) _).loadsTo⟩⟩

theorem encodeIdentities_cases (rs : List Identity) :
    let roles := rs.filter fun r => r.kind = .role
    let users := rs.filter fun r => r.kind = .user
    (∀ r ∈ rs, r.kind ≠ .unknown) ∧ split rs = .ok (roles, users) ∧
        encodeIdentities rs = .ok (identityTexts roles users) ∨
      ∃ bad : Identity, bad.IsFirstStray rs ∧ split rs = .error bad.unfiled ∧
        encodeIdentities rs = .error bad.unfiled := by
  rcases split_cases rs with ⟨hrs, hsplit⟩ | ⟨bad, hbad, hsplit⟩
  · have hclassified : Snapshot.Classified { records := rs } := hrs
    exact Or.inl ⟨hrs, hsplit, encodeIdentities_of_classified hclassified⟩
  · refine Or.inr ⟨bad, hbad, hsplit, ?_⟩
    simp only [encodeIdentities, hsplit]
    rfl

/-- The error of an encoding names the first record that is not mapped, and is that of the split.
Without one, no record that the split lets through is refused, under whatever key, and both lists
are written. -/
theorem encodeIdentities_split (rs : List Identity) :
    ((∃ e, encodeIdentities rs = .error e) ↔ ∃ r ∈ rs, r.Unmapped) ∧
      (∀ e, encodeIdentities rs = .error e → split rs = .error e ∧
        ∃ before bad after, rs = before ++ bad :: after ∧ (∀ r ∈ before, ¬ r.Unmapped) ∧
          bad.Unmapped ∧ e = bad.unfiled) ∧
      (∀ roles users, split rs = .ok (roles, users) →
        ∀ key, ∀ r ∈ roles ++ users, ∃ fields, encodeIdentity key r = .ok fields) ∧
      ∀ data, encodeIdentities rs = .ok data →
        FiledUnder rolesKey "rolearn" .role rs data ∧
          FiledUnder usersKey "userarn" .user rs data := by
  simp only [Identity.unmapped_iff]
  rcases encodeIdentities_cases rs with ⟨hrs, hsplit, hencode⟩ | ⟨bad, hbad, hsplit, hencode⟩
  · rw [hsplit, hencode]
    refine ⟨iff_of_false nofun fun ⟨r, hr, hkind⟩ => hrs r hr hkind, nofun, ?_, ?_⟩
    · rintro roles users h key r hr
      cases h
      have hmem : r ∈ rs := by
        rcases List.mem_append.mp hr with hr | hr
        · exact List.mem_of_mem_filter hr
        · exact List.mem_of_mem_filter hr
      exact ⟨_, encodeIdentity_of_kind (hrs r hmem) key⟩
    · rintro data h
      cases h
      exact filedUnder_identityTexts rs
  · rw [hsplit, hencode]
    refine ⟨iff_of_true ⟨_, rfl⟩ ⟨bad, hbad.mem, hbad.kind⟩, ?_, nofun, nofun⟩
    rintro e h
    cases h
    obtain ⟨before, after, hrs, hbefore, hkind⟩ := hbad
    exact ⟨rfl, before, bad, after, hrs, hbefore, hkind, rfl⟩

end AuthMap
