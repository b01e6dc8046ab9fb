import AuthMap.Proofs.Yaml.Document
import AuthMap.Proofs.Yaml.Parser

/-! Printed texts read back: the document of a printed list shows its texts, and that of printed
records their fields. -/

namespace AuthMap.Yaml

/-! ### Trees of printed texts -/

theorem isText_textTree (t : Text) : (textTree t).IsText := by
  refine ⟨rfl, fun h => ?_⟩
  obtain ⟨cs, hcs, hplain⟩ := (Option.any_eq_true _ _).mp h
  have hp := Style.isPlain_of_eq (of_decide_eq_true hplain)
  simp only [Style.isPlain, Bool.and_eq_true, decide_eq_true_eq] at hp
  rw [Tag.ofText, hcs]
  exact hp.1.1.1.1.1.1

theorem areTexts_map {α : Type} {f : α → Tree} {xs : List α} (h : ∀ x ∈ xs, (f x).IsText) :
    AreTexts (xs.map f) := by
  induction xs with
  | nil => trivial
  | cons x xs ih =>
    exact ⟨h x List.mem_cons_self, ih fun y hy => h y (List.mem_cons_of_mem _ hy)⟩

theorem isText_fieldTree (f : Field) : (fieldTree f).IsText := by
  cases f with
  | text t => exact isText_textTree t
  | texts ts => exact ⟨rfl, areTexts_map fun t _ => isText_textTree t⟩

structure IsStored (fs : List (String × Field)) : Prop where
  record : IsRecord fs
  named : ∀ x ∈ fs, Tag.ofText (Text.ofString x.1) = .text
  nodup : (fs.map (·.1)).Nodup

theorem areEntries_fields {fs : List (String × Field)}
    (h : ∀ x ∈ fs, Tag.ofText (Text.ofString x.1) = .text) :
    AreEntries (fs.map fun x => (nameTree x.1, fieldTree x.2)) := by
  induction fs with
  | nil => trivial
  | cons x fs ih =>
    exact ⟨⟨⟨rfl, fun _ => h x List.mem_cons_self⟩, rfl, isText_fieldTree x.2⟩,
      ih fun y hy => h y (List.mem_cons_of_mem _ hy)⟩

theorem isText_recordTree {fs : List (String × Field)} (h : IsStored fs) :
    (recordTree fs).IsText := by
  refine ⟨rfl, areEntries_fields h.named, ?_⟩
  rw [List.map_map]
  have hn := h.nodup
  rw [List.Nodup, List.pairwise_map] at hn ⊢
  refine hn.imp fun hne he => hne (Text.ofString_injective ?_)
  exact Option.some.inj he

/-! ### Documents of printed texts -/

theorem ofChars_of_document {cs : List Char} {t : Tree}
    (h : document (checkNames [] false (tokens cs)) = .ok (some t)) (ht : t.IsText) :
    ∃ d, Document.ofChars cs = .ok (some d) ∧ t.ShownAt d d.root := by
  obtain ⟨g, d, hg, hd, hshown⟩ := Document.ofGraph_of_isText ht
  refine ⟨d, ?_, hshown⟩
  simp only [Document.ofChars, h, hg, hd, bind, Except.bind]
  rfl

theorem ofChars_printTexts (ts : List Text) :
    ∃ d, Document.ofChars (printTexts ts).toList = .ok (some d) ∧
      (Tree.seq {} (ts.map textTree)).ShownAt d d.root :=
  ofChars_of_document (document_printTexts ts) ⟨rfl, areTexts_map fun t _ => isText_textTree t⟩

theorem ofChars_printRecords {rs : List (List (String × Field))} (h : ∀ fs ∈ rs, IsStored fs) :
    ∃ d, Document.ofChars (printRecords rs).toList = .ok (some d) ∧
      (Tree.seq {} (rs.map recordTree)).ShownAt d d.root :=
  ofChars_of_document (document_printRecords fun fs hfs => (h fs hfs).record)
    ⟨rfl, areTexts_map fun fs hfs => isText_recordTree (h fs hfs)⟩

/-! ### Fields of a record -/

/-- A key is found with what its field shows, and no other key is found. -/
theorem lookup_of_shownAt {d : Document} {fs : List (String × Field)} {es : List (Nat × Nat)}
    (h : EntriesShownAt d (fs.map fun x => (nameTree x.1, fieldTree x.2)) es) (key : String) :
    match fs.lookup key with
    | some f => ∃ j, d.lookup key es = some j ∧ (fieldTree f).ShownAt d j
    | none => d.lookup key es = none := by
  induction fs generalizing es with
  | nil =>
    obtain rfl : es = [] := h
    rfl
  | cons x fs ih =>
    obtain ⟨i, j, js, rfl, ⟨hi, hj⟩, hjs⟩ := h
    have hcell : d.cell i = .scalar (.text (Text.ofString x.1)) := hi
    by_cases hx : x.1 = key
    · subst hx
      rw [List.lookup_cons_self]
      exact ⟨j, by simp [Document.lookup, hcell], hj⟩
    · have hne : Text.ofString x.1 ≠ Text.ofString key := fun he => hx (Text.ofString_injective he)
      have hrest : d.lookup key ((i, j) :: js) = d.lookup key js := by
        simp [Document.lookup, hcell, hne]
      rw [List.lookup_cons, beq_false_of_ne (Ne.symm hx), hrest]
      exact ih hjs

theorem lookupSome_of_shownAt {d : Document} {fs : List (String × Field)}
    {es : List (Nat × Nat)}
    (h : EntriesShownAt d (fs.map fun x => (nameTree x.1, fieldTree x.2)) es) (key : String) :
    match fs.lookup key with
    | some f => ∃ j, d.lookupSome key es = some j ∧ (fieldTree f).ShownAt d j
    | none => d.lookupSome key es = none := by
  have hl := lookup_of_shownAt h key
  cases hf : fs.lookup key with
  | none =>
    rw [hf] at hl
    simp only [Document.lookupSome, hl, Option.filter_none]
  | some f =>
    rw [hf] at hl
    obtain ⟨j, hj, hshown⟩ := hl
    refine ⟨j, ?_, hshown⟩
    cases f with
    | text t =>
      have hcell : d.cell j = .scalar (.text t) := hshown
      simp [Document.lookupSome, hj, Option.filter, hcell]
    | texts ts =>
      obtain ⟨is, hcell, -⟩ := hshown
      simp [Document.lookupSome, hj, Option.filter, hcell]

end AuthMap.Yaml
