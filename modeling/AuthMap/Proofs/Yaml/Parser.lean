import Mathlib.Data.List.Basic
import AuthMap.Yaml.Token.Anchor
import AuthMap.Yaml.Tree.Parser
import AuthMap.Proofs.Yaml.Printed

/-! The trees of printed texts: a sequence of scalars, or a sequence of mappings from names to
scalars and to sequences of them. -/

namespace AuthMap.Yaml

/-- The tree of a text, whose value goes by the text where it is written without quotes. -/
def textTree (t : Text) : Tree := .scalar {} t (t.chars?.any fun cs => Style.of cs = .plain)

def fieldTree : Field → Tree
  | .text t => textTree t
  | .texts ts => .seq {} (ts.map textTree)

def nameTree (key : String) : Tree := .scalar {} (Text.ofString key) true

def recordTree (fs : List (String × Field)) : Tree :=
  .map {} (fs.map fun x => (nameTree x.1, fieldTree x.2))

/-! ### Names among tokens -/

def Token.isBare : Token → Bool
  | .anchor _ | .alias _ | .tag _ _ | .fault _ => false
  | _ => true

theorem checkNames_of_isBare {ts : List Token} (h : ts.all Token.isBare)
    (names : List (List Char)) : checkNames names false ts = ts := by
  induction ts with
  | nil => rfl
  | cons t ts ih =>
    simp only [List.all_cons, Bool.and_eq_true] at h
    obtain ⟨ht, hts⟩ := h
    cases t <;> first
      | exact congrArg _ (ih hts)
      | cases ht

theorem isBare_valueTokens (f : Field) : (valueTokens f).all Token.isBare := by
  unfold valueTokens
  split
  · rfl
  · rfl
  · rw [itemTokens, List.all_flatMap]
    exact List.all_eq_true.mpr fun _ _ => rfl

theorem isBare_recordTokens (fs : List (String × Field)) :
    (recordTokens fs).all Token.isBare := by
  have hfields : (fs.flatMap fun x => fieldTokens x.1 x.2).all Token.isBare := by
    rw [List.all_flatMap]
    refine List.all_eq_true.mpr fun x _ => ?_
    simpa [fieldTokens, Token.isBare] using isBare_valueTokens x.2
  simp only [recordTokens, List.all_cons, List.all_append, hfields]
  rfl

theorem isBare_listTokens {rows : List (List Token)}
    (h : ∀ row ∈ rows, row.all Token.isBare) : (listTokens rows).all Token.isBare := by
  have hrows : rows.flatten.all Token.isBare := by
    rw [List.all_flatten]
    exact List.all_eq_true.mpr h
  simp only [listTokens, List.all_cons, List.all_append, hrows]
  rfl

/-! ### Nodes -/

section

variable (hs : Handles)

theorem node_scalar (place : Place) (fuel : Nat) (t : Text) (r : List Token) :
    node hs place (fuel + 1) (scalarToken t :: r) = .ok (textTree t, r) := by
  simp only [node, scalarToken, props, textTree, goesByText]
  cases place <;> simp [bind, Except.bind, pure, Except.pure]

def Token.beginsNode : Token → Bool
  | .scalar _ _ | .flowSequence | .blockSequence | .blockMapping => true
  | _ => false

variable {hs} {fuel : Nat} {t : Token} {ts ts' r : List Token}

theorem indentless_entry {item : Tree} {items : List Tree} (ht : t.beginsNode)
    (hitem : node hs .other fuel (t :: ts) = .ok (item, ts'))
    (hitems : indentless hs fuel ts' = .ok (items, r)) :
    indentless hs (fuel + 1) (.blockEntry :: t :: ts) = .ok (item :: items, r) := by
  unfold indentless
  cases t <;> cases ht <;> simp only [hitem, hitems, bind, Except.bind, pure, Except.pure]

theorem blockItems_entry {item : Tree} {items : List Tree} (ht : t.beginsNode)
    (hitem : node hs .other fuel (t :: ts) = .ok (item, ts'))
    (hitems : blockItems hs fuel ts' = .ok (items, r)) :
    blockItems hs (fuel + 1) (.blockEntry :: t :: ts) = .ok (item :: items, r) := by
  unfold blockItems
  cases t <;> cases ht <;> simp only [hitem, hitems, bind, Except.bind, pure, Except.pure]

theorem indentless_items (us : List Text) (hr : ∀ t ∈ r.head?, t ≠ .blockEntry)
    (hf : us.length + 1 < fuel) :
    indentless hs fuel (itemTokens us ++ r) = .ok (us.map textTree, r) := by
  induction us generalizing fuel with
  | nil =>
    obtain ⟨fuel, rfl⟩ := Nat.exists_eq_succ_of_ne_zero (Nat.ne_zero_of_lt hf)
    unfold indentless
    split
    · next h =>
      have hhead := congrArg List.head? h
      exact absurd rfl (hr .blockEntry (by simpa [itemTokens] using hhead))
    · rfl
  | cons u us ih =>
    obtain ⟨fuel, rfl⟩ := Nat.exists_eq_add_of_lt hf
    have hlen : us.length + 1 < us.length + 1 + fuel + 1 := by omega
    have h := indentless_entry rfl (node_scalar hs .other _ u _) (ih hlen)
    simpa [itemTokens, Nat.add_right_comm] using h

theorem node_value (f : Field) (hr : ∀ t ∈ r.head?, t ≠ .blockEntry)
    (hf : (valueTokens f).length + 3 < fuel) :
    node hs .side fuel (valueTokens f ++ r) = .ok (fieldTree f, r) := by
  obtain ⟨fuel, rfl⟩ := Nat.exists_eq_succ_of_ne_zero (Nat.ne_zero_of_lt hf)
  cases f with
  | text u => exact node_scalar hs .side fuel u r
  | texts us =>
    cases us with
    | nil =>
      obtain ⟨fuel, rfl⟩ := Nat.exists_eq_succ_of_ne_zero (n := fuel) (by omega)
      rfl
    | cons u us =>
      have hlen : (u :: us).length + 1 < fuel := by
        simp [valueTokens, itemTokens] at hf ⊢
        omega
      have hitems : indentless hs fuel (.blockEntry :: scalarToken u :: (itemTokens us ++ r)) =
          .ok ((u :: us).map textTree, r) := indentless_items (u :: us) hr hlen
      change node hs .side (fuel + 1) (.blockEntry :: scalarToken u :: (itemTokens us ++ r)) = _
      unfold node
      simp only [props, hitems, bind, Except.bind, pure, Except.pure]
      rfl

theorem blockSide_node (ht : t.beginsNode ∨ t = .blockEntry) :
    blockSide hs (fuel + 1) (t :: ts) = node hs .side fuel (t :: ts) := by
  unfold blockSide
  cases t <;> simp [Token.beginsNode] at ht <;> rfl

theorem valueTokens_head (f : Field) :
    ∃ t ts, valueTokens f = t :: ts ∧ (t.beginsNode ∨ t = .blockEntry) := by
  cases f with
  | text u => exact ⟨_, _, rfl, Or.inl rfl⟩
  | texts us =>
    cases us with
    | nil => exact ⟨_, _, rfl, Or.inl rfl⟩
    | cons u us => exact ⟨_, _, rfl, Or.inr rfl⟩

theorem blockEntries_field {key : String} {f : Field} {entries : List (Tree × Tree)}
    (hvalue : node hs .side (fuel + 1) (valueTokens f ++ ts) = .ok (fieldTree f, ts))
    (hentries : blockEntries hs (fuel + 2) ts = .ok (entries, r)) :
    blockEntries hs (fuel + 3) (fieldTokens key f ++ ts) =
      .ok ((nameTree key, fieldTree f) :: entries, r) := by
  obtain ⟨t, vs, hv, ht⟩ := valueTokens_head f
  have hside : blockSide hs (fuel + 2) (valueTokens f ++ ts) = .ok (fieldTree f, ts) := by
    rw [hv, List.cons_append, blockSide_node ht, ← List.cons_append, ← hv, hvalue]
  have hname : blockSide hs (fuel + 2)
      (.scalar (Text.ofString key) true :: .value :: (valueTokens f ++ ts)) =
        .ok (nameTree key, .value :: (valueTokens f ++ ts)) := blockSide_node (Or.inl rfl)
  rw [fieldTokens, List.cons_append, List.cons_append, List.cons_append]
  unfold blockEntries
  simp only [hname, hside, hentries, bind, Except.bind]
  rfl

theorem blockEntries_fields (fs : List (String × Field)) (r : List Token)
    (hf : 2 * (fs.flatMap fun x => fieldTokens x.1 x.2).length + 1 < fuel) :
    blockEntries hs fuel ((fs.flatMap fun x => fieldTokens x.1 x.2) ++ .blockEnd :: r) =
      .ok (fs.map fun x => (nameTree x.1, fieldTree x.2), r) := by
  induction fs generalizing fuel with
  | nil =>
    obtain ⟨fuel, rfl⟩ := Nat.exists_eq_succ_of_ne_zero (Nat.ne_zero_of_lt hf)
    rfl
  | cons f fs ih =>
    rw [List.flatMap_cons, List.length_append, fieldTokens, List.length_cons, List.length_cons,
      List.length_cons] at hf
    obtain ⟨fuel, rfl⟩ := Nat.exists_eq_add_of_le (show 3 ≤ fuel by omega)
    rw [Nat.add_comm 3] at hf ⊢
    have hhead : ∀ t ∈ ((fs.flatMap fun x => fieldTokens x.1 x.2) ++ .blockEnd :: r).head?,
        t ≠ .blockEntry := by
      cases fs <;> simp [fieldTokens]
    rw [List.flatMap_cons, List.append_assoc]
    exact blockEntries_field (node_value f.2 hhead (by omega)) (ih (by omega))

theorem node_record (fs : List (String × Field)) (r : List Token)
    (hf : 2 * (recordTokens fs).length < fuel) :
    node hs .other fuel ((recordTokens fs).tail ++ r) = .ok (recordTree fs, r) := by
  obtain ⟨fuel, rfl⟩ := Nat.exists_eq_succ_of_ne_zero (Nat.ne_zero_of_lt hf)
  have hentries : blockEntries hs fuel ((fs.flatMap fun x => fieldTokens x.1 x.2) ++
      .blockEnd :: r) = .ok (fs.map fun x => (nameTree x.1, fieldTree x.2), r) := by
    refine blockEntries_fields fs r ?_
    simp only [recordTokens, List.length_cons, List.length_append] at hf
    omega
  rw [recordTokens, List.tail_cons, List.cons_append, List.append_assoc, List.singleton_append]
  unfold node
  simp only [props, hentries, bind, Except.bind, pure, Except.pure]
  rfl

/-! ### Rows and documents -/

theorem blockItems_rows {rows : List (List Token × Tree)}
    (h : ∀ x ∈ rows, (∃ t ts, x.1 = t :: ts ∧ t.beginsNode) ∧ ∀ fuel r, 2 * x.1.length + 2 < fuel →
      node hs .other fuel (x.1 ++ r) = .ok (x.2, r))
    (hf : 2 * (rows.map (.blockEntry :: ·.1)).flatten.length + 1 < fuel) :
    blockItems hs fuel ((rows.map (.blockEntry :: ·.1)).flatten ++ .blockEnd :: r) =
      .ok (rows.map (·.2), r) := by
  -- the fuel counts every token twice, which is more than a row and its node take
  induction rows generalizing fuel with
  | nil =>
    obtain ⟨fuel, rfl⟩ := Nat.exists_eq_succ_of_ne_zero (Nat.ne_zero_of_lt hf)
    rfl
  | cons x rows ih =>
    obtain ⟨⟨t, ts, hx, ht⟩, hnode⟩ := h x List.mem_cons_self
    obtain ⟨fuel, rfl⟩ := Nat.exists_eq_succ_of_ne_zero (Nat.ne_zero_of_lt hf)
    rw [List.map_cons, List.flatten_cons, List.length_append, List.length_cons] at hf
    have htail := ih (fun y hy => h y (List.mem_cons_of_mem _ hy)) (show _ < fuel by omega)
    have hitem := hnode fuel ((rows.map (.blockEntry :: ·.1)).flatten ++ .blockEnd :: r) (by omega)
    rw [hx] at hitem
    have hrow := blockItems_entry ht hitem htail
    simpa [hx] using hrow

end

theorem document_rows (rows : List (List Token × Tree))
    (h : ∀ x ∈ rows, (∃ t ts, x.1 = t :: ts ∧ t.beginsNode) ∧ ∀ fuel r, 2 * x.1.length + 2 < fuel →
      node Handles.default .other fuel (x.1 ++ r) = .ok (x.2, r)) :
    document (listTokens (rows.map (.blockEntry :: ·.1))) =
      .ok (some (.seq {} (rows.map (·.2)))) := by
  let body := (rows.map (.blockEntry :: ·.1)).flatten
  have hitems : blockItems Handles.default (4 * (body.length + 2) + 7)
      (body ++ .blockEnd :: [.streamEnd]) = .ok (rows.map (·.2), [.streamEnd]) :=
    blockItems_rows h (show 2 * body.length + 1 < _ by omega)
  have hnode : node Handles.default .other (4 * (body.length + 2) + 8)
      (.blockSequence :: (body ++ .blockEnd :: [.streamEnd])) =
        .ok (.seq {} (rows.map (·.2)), [.streamEnd]) := by
    unfold node
    simp only [props, hitems, bind, Except.bind, pure, Except.pure]
  have hlen : 4 * (listTokens (rows.map (.blockEntry :: ·.1))).length + 4 =
      4 * (body.length + 2) + 8 := by
    simp only [listTokens, List.length_cons, List.length_append, body, List.length_nil]
    omega
  unfold document
  simp only [hlen]
  simp only [listTokens]
  change (do
    let read ← node Handles.default .other (4 * (body.length + 2) + 8)
      (.blockSequence :: (body ++ Token.blockEnd :: [.streamEnd]))
    finish read.2
    pure (some read.1)) = _
  rw [hnode]
  rfl

theorem document_printTexts (ts : List Text) :
    document (checkNames [] false (tokens (printTexts ts).toList)) =
      .ok (some (.seq {} (ts.map textTree))) := by
  by_cases hne : ts = []
  · subst hne
    rw [show printTexts [] = "[]\n" from rfl, tokens_empty]
    rfl
  · have hbare : (listTokens (ts.map fun t => [.blockEntry, scalarToken t])).all Token.isBare := by
      refine isBare_listTokens fun row hrow => ?_
      obtain ⟨t, -, rfl⟩ := List.mem_map.mp hrow
      rfl
    have h := document_rows (ts.map fun t => ([scalarToken t], textTree t)) fun x hx => by
      obtain ⟨t, -, rfl⟩ := List.mem_map.mp hx
      refine ⟨⟨_, _, rfl, rfl⟩, fun fuel r hf => ?_⟩
      obtain ⟨fuel, rfl⟩ := Nat.exists_eq_succ_of_ne_zero (Nat.ne_zero_of_lt hf)
      exact node_scalar _ _ _ _ _
    rw [List.map_map, List.map_map] at h
    rw [tokens_printTexts hne, checkNames_of_isBare hbare]
    exact h

theorem document_printRecords {rs : List (List (String × Field))} (hrs : ∀ fs ∈ rs, IsRecord fs) :
    document (checkNames [] false (tokens (printRecords rs).toList)) =
      .ok (some (.seq {} (rs.map recordTree))) := by
  by_cases hne : rs = []
  · subst hne
    rw [show printRecords [] = "[]\n" from rfl, tokens_empty]
    rfl
  · have hbare : (listTokens (rs.map recordTokens)).all Token.isBare := by
      refine isBare_listTokens fun row hrow => ?_
      obtain ⟨fs, -, rfl⟩ := List.mem_map.mp hrow
      exact isBare_recordTokens fs
    have h := document_rows (rs.map fun fs => ((recordTokens fs).tail, recordTree fs))
      fun x hx => by
        obtain ⟨fs, -, rfl⟩ := List.mem_map.mp hx
        refine ⟨⟨_, _, rfl, rfl⟩, fun fuel r hf => node_record fs r ?_⟩
        simp only [recordTokens, List.tail_cons, List.length_cons] at hf ⊢
        omega
    rw [List.map_map, List.map_map] at h
    rw [tokens_printRecords hne hrs, checkNames_of_isBare hbare]
    exact h

end AuthMap.Yaml
