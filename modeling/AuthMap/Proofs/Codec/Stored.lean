import AuthMap.Codec
import AuthMap.Proofs.Session
import AuthMap.Proofs.Trim
import AuthMap.Proofs.Yaml.RoundTrip

/-! Stored texts that were written here: records and accounts are read from them as they were. -/

namespace AuthMap

open Yaml (Document Element Field ItemsShownAt EntriesShownAt Tree)

/-! ### Elements -/

theorem textAt_of_shownAt {d : Document} {t : Text} {i : Nat}
    (h : (Yaml.fieldTree (.text t)).ShownAt d i) : Identity.textAt d i = .ok t := by
  have hcell : d.cell i = .scalar (.text t) := h
  simp [Identity.textAt, hcell]

theorem forall₂_of_itemsShownAt {α : Type} {d : Document} {tree : α → Tree} {p : α → Nat → Prop}
    (hp : ∀ x i, (tree x).ShownAt d i → p x i) {xs : List α} {is : List Nat}
    (h : ItemsShownAt d (xs.map tree) is) : List.Forall₂ p xs is := by
  induction xs generalizing is with
  | nil =>
    obtain rfl : is = [] := h
    exact .nil
  | cons x xs ih =>
    obtain ⟨i, js, rfl, hi, hjs⟩ := h
    exact .cons (hp x i hi) (ih hjs)

theorem mapM_of_itemsShownAt {d : Document} {α β : Type} {f : Nat → Except α β} {tree : β → Tree}
    (hf : ∀ x i, (tree x).ShownAt d i → f i = .ok x) {xs : List β} {is : List Nat}
    (h : ItemsShownAt d (xs.map tree) is) : is.mapM f = .ok xs :=
  Except.mapM_eq_ok.mpr (forall₂_of_itemsShownAt hf h).flip

theorem textsAt_of_shownAt {d : Document} {ts : List Text} {i : Nat}
    (h : (Yaml.fieldTree (.texts ts)).ShownAt d i) : Identity.textsAt d i = .ok ts := by
  obtain ⟨is, hcell, his⟩ := h
  simp only [Identity.textsAt, hcell, List.mapM_map]
  exact mapM_of_itemsShownAt (fun t i ht => textAt_of_shownAt ht) his

def IsArnKey (key : String) : Prop := key = "rolearn" ∨ key = "userarn"

theorem ofEntries_of_shownAt {d : Document} {key : String} (hk : IsArnKey key) {r : Identity}
    {es : List (Nat × Nat)}
    (h : EntriesShownAt d ((r.written key).map fun x => (Yaml.nameTree x.1, Yaml.fieldTree x.2))
      es) : Identity.ofEntries d es = .ok r := by
  -- the name stands under one of its two keys only
  obtain ⟨i, hi, harn⟩ : ∃ i, (d.lookupSome "rolearn" es).or (d.lookupSome "userarn" es) = some i ∧
      (Yaml.fieldTree (.text r.arn)).ShownAt d i := by
    rcases hk with rfl | rfl
    · obtain ⟨i, hi, harn⟩ := Yaml.lookupSome_of_shownAt h "rolearn"
      exact ⟨i, by rw [hi]; rfl, harn⟩
    · have hnone : d.lookupSome "rolearn" es = none := Yaml.lookupSome_of_shownAt h "rolearn"
      obtain ⟨i, hi, harn⟩ := Yaml.lookupSome_of_shownAt h "userarn"
      exact ⟨i, by rw [hnone, hi]; rfl, harn⟩
  obtain ⟨j, hj, hname⟩ : ∃ j, d.lookupSome "username" es = some j ∧
      (Yaml.fieldTree (.text r.username)).ShownAt d j := by
    rcases hk with rfl | rfl <;> exact Yaml.lookupSome_of_shownAt h "username"
  obtain ⟨k, hgk, hgroups⟩ : ∃ k, d.lookupSome "groups" es = some k ∧
      (Yaml.fieldTree (.texts r.groups)).ShownAt d k := by
    rcases hk with rfl | rfl <;> exact Yaml.lookupSome_of_shownAt h "groups"
  have hread : Identity.readFields d i (some j) (some k) = .ok r := by
    simp only [Identity.readFields, textAt_of_shownAt harn, Option.elim, textAt_of_shownAt hname,
      textsAt_of_shownAt hgroups, bind, Except.bind]
    rfl
  simp only [Identity.ofEntries, hi, hj, hgk, hread]

theorem ofElement_of_shownAt {d : Document} {key : String} (hk : IsArnKey key) {r : Identity}
    {i : Nat} (h : (Yaml.recordTree (r.written key)).ShownAt d i) :
    Identity.ofElement d (.cell i) = .ok r := by
  obtain ⟨es, hcell, hes⟩ := h
  simp only [Identity.ofElement, hcell, ofEntries_of_shownAt hk hes]

/-- Any name that is none of the two others may stand before the principal. -/
theorem isStored_written_of_name {key : String} (hname : Yaml.IsName key)
    (htext : Yaml.Tag.ofText (Text.ofString key) = .text) (husername : key ≠ "username")
    (hgroups : key ≠ "groups") (r : Identity) : Yaml.IsStored (r.written key) := by
  have hnames : ∀ x ∈ r.written key,
      Yaml.IsName x.1 ∧ Yaml.Tag.ofText (Text.ofString x.1) = .text := by
    simp only [Identity.written, List.forall_mem_cons]
    exact ⟨⟨hname, htext⟩, ⟨⟨by simp, by simp, by simp⟩, rfl⟩, ⟨⟨by simp, by simp, by simp⟩, rfl⟩,
      by simp⟩
  refine ⟨⟨by simp [Identity.written], fun x hx => (hnames x hx).1⟩,
    fun x hx => (hnames x hx).2, ?_⟩
  have hkeys : (r.written key).map (·.1) = [key, "username", "groups"] := rfl
  rw [hkeys]
  simp [husername, hgroups]

theorem isStored_written {key : String} (hk : IsArnKey key) (r : Identity) :
    Yaml.IsStored (r.written key) := by
  rcases hk with rfl | rfl
  · exact isStored_written_of_name ⟨by simp, by simp, by simp⟩ rfl (by decide) (by decide) r
  · exact isStored_written_of_name ⟨by simp, by simp, by simp⟩ rfl (by decide) (by decide) r

theorem forall_isStored_written {key : String} (hk : IsArnKey key) (rs : List Identity) :
    ∀ fs ∈ rs.map (Identity.written key), Yaml.IsStored fs := by
  intro fs hfs
  obtain ⟨r, -, rfl⟩ := List.mem_map.mp hfs
  exact isStored_written hk r

/-! ### Lists -/

theorem loadEntries_of_ofChars {key text : String} {data : Data}
    (hget : data.get? key = some text) (htrim : Text.trim text.toList ≠ []) {d : Document}
    (hd : Document.ofChars text.toList = .ok (some d)) {items : List Element}
    (hroot : d.cell d.root = .list items) : loadEntries key data = .ok (d, items) := by
  obtain ⟨c, cs, hcs⟩ := List.exists_cons_of_ne_nil htrim
  simp only [loadEntries, hget, Option.map_some, hcs, hd, hroot]

theorem mapM_zipIdx {α : Type} {f : Element × Nat → Except Trouble α} {d : Document}
    {tree : α → Tree}
    (hf : ∀ x i n, (tree x).ShownAt d i → f (.cell i, n) = .ok x) {xs : List α} {is : List Nat}
    (h : ItemsShownAt d (xs.map tree) is) (n : Nat) :
    ((is.map Element.cell).zipIdx n).mapM f = .ok xs := by
  induction xs generalizing is n with
  | nil =>
    obtain rfl : is = [] := h
    rfl
  | cons x xs ih =>
    obtain ⟨i, js, rfl, hi, hjs⟩ := h
    simp only [List.map_cons, List.zipIdx_cons, List.mapM_cons, hf x i n hi, ih hjs, bind,
      Except.bind]
    rfl

theorem trim_printTexts (ts : List Text) : Text.trim (Yaml.printTexts ts).toList ≠ [] := by
  cases ts with
  | nil =>
    change Text.trim ['[', ']', '\n'] ≠ []
    exact Text.trimOf_ne_nil rfl
  | cons t ts =>
    simp only [Yaml.printTexts, List.isEmpty_cons, Bool.false_eq_true, if_false,
      String.toList_ofList]
    exact Text.trimOf_ne_nil rfl

theorem trim_printRecords {rs : List (List (String × Field))} (h : ∀ fs ∈ rs, fs ≠ []) :
    Text.trim (Yaml.printRecords rs).toList ≠ [] := by
  cases rs with
  | nil =>
    change Text.trim ['[', ']', '\n'] ≠ []
    exact Text.trimOf_ne_nil rfl
  | cons fs rs =>
    obtain ⟨kf, kfs, rfl⟩ := List.exists_cons_of_ne_nil (h fs List.mem_cons_self)
    simp only [Yaml.printRecords, List.isEmpty_cons, Bool.false_eq_true, if_false,
      String.toList_ofList]
    exact Text.trimOf_ne_nil rfl

theorem decodeIdentities_printRecords {key arnKey : String} (hk : IsArnKey arnKey)
    {rs : List Identity} {data : Data}
    (hget : data.get? key = some (Yaml.printRecords (rs.map (Identity.written arnKey)))) :
    decodeIdentities key data = .ok rs := by
  have hstored := forall_isStored_written hk rs
  obtain ⟨d, hd, is, hroot, his⟩ := Yaml.ofChars_printRecords hstored
  have hload := loadEntries_of_ofChars hget
    (trim_printRecords fun fs hfs => (hstored fs hfs).record.1) hd hroot
  rw [List.map_map] at his
  have hread := mapM_zipIdx (f := decodeIdentity key d) (fun r i n hr => by
    simp only [decodeIdentity, ofElement_of_shownAt hk hr]) his 0
  simp only [decodeIdentities, hload, bind, Except.bind]
  exact hread

theorem decodeAccounts_printTexts {ts : List Text} {data : Data}
    (hget : data.get? accountsKey = some (Yaml.printTexts ts)) : decodeAccounts data = .ok ts := by
  obtain ⟨d, hd, is, hroot, his⟩ := Yaml.ofChars_printTexts ts
  have hload := loadEntries_of_ofChars hget (trim_printTexts ts) hd hroot
  have hread := mapM_zipIdx (f := decodeAccount d) (fun t i n ht => by
    have hcell : d.cell i = .scalar (.text t) := ht
    simp only [decodeAccount, hcell]) his 0
  simp only [decodeAccounts, hload, bind, Except.bind]
  exact hread

/-! ### Texts of records -/

/-- A document has a mapping with these three keys and no other, under which a record stands. -/
def Identity.StoredAt (d : Document) (arnKey : String) (r : Identity) (i : Nat) : Prop :=
  ∃ k₁ arn k₂ username k₃ groups items,
    d.cell i = .map [(k₁, arn), (k₂, username), (k₃, groups)] ∧
      d.cell k₁ = .scalar (.text arnKey) ∧ d.cell arn = .scalar (.text r.arn) ∧
      d.cell k₂ = .scalar (.text "username") ∧ d.cell username = .scalar (.text r.username) ∧
      d.cell k₃ = .scalar (.text "groups") ∧ d.cell groups = .list (items.map .cell) ∧
      List.Forall₂ (fun t j => d.cell j = .scalar (.text t)) r.groups items

/-- A text loads to a list of mappings, one for each record. -/
def Loads (arnKey : String) (rs : List Identity) (text : String) : Prop :=
  ∃ d items, Document.ofChars text.toList = .ok (some d) ∧
    d.cell d.root = .list (items.map .cell) ∧ List.Forall₂ (Identity.StoredAt d arnKey) rs items

theorem storedAt_of_shownAt {d : Document} {arnKey : String} {r : Identity} {i : Nat}
    (h : (Yaml.recordTree (r.written arnKey)).ShownAt d i) : r.StoredAt d arnKey i := by
  obtain ⟨es, hcell, k₁, arn, es₁, rfl, ⟨hk₁, harn⟩, k₂, username, es₂, rfl, ⟨hk₂, husername⟩,
    k₃, groups, es₃, rfl, ⟨hk₃, items, hgroups, hitems⟩, rfl⟩ := h
  have hmembers : List.Forall₂ (fun t j => d.cell j = .scalar (.text t)) r.groups items :=
    forall₂_of_itemsShownAt (fun t j (ht : (Yaml.textTree t).ShownAt d j) => ht) hitems
  exact ⟨k₁, arn, k₂, username, k₃, groups, items, hcell, hk₁, harn, hk₂, husername, hk₃, hgroups,
    hmembers⟩

theorem loads_of_isStored {arnKey : String} {rs : List Identity}
    (hstored : ∀ fs ∈ rs.map (Identity.written arnKey), Yaml.IsStored fs) :
    Loads arnKey rs (Yaml.printRecords (rs.map (Identity.written arnKey))) := by
  obtain ⟨d, hd, items, hroot, hitems⟩ := Yaml.ofChars_printRecords hstored
  rw [List.map_map] at hitems
  have hrecords : List.Forall₂ (Identity.StoredAt d arnKey) rs items :=
    forall₂_of_itemsShownAt (fun r i (hr : (Yaml.recordTree (r.written arnKey)).ShownAt d i) =>
      storedAt_of_shownAt hr) hitems
  exact ⟨d, items, hd, hroot, hrecords⟩

theorem loads_printRecords {arnKey : String} (hk : IsArnKey arnKey) (rs : List Identity) :
    Loads arnKey rs (Yaml.printRecords (rs.map (Identity.written arnKey))) :=
  loads_of_isStored (forall_isStored_written hk rs)

end AuthMap
