import Mathlib.Data.List.Basic
import AuthMap.Yaml.Document
import AuthMap.Proofs.Yaml.Graph

/-! The document of a tree of texts. Every node is visited once, containers wait until their turn,
and when none waits any more every node below the root has its value. -/

namespace AuthMap.Yaml

/-! ### Nodes that texts are made of -/

/-- A number at which a graph holds some tree of texts. -/
def Held (g : Graph) (i : Nat) : Prop := ∃ t : Tree, t.IsText ∧ t.HeldAt g i

def IsKey (g : Graph) (i : Nat) : Prop := ∃ t, g[i]? = some ⟨.text, .scalar t⟩

namespace Graph

theorem node_of_getElem? {g : Graph} {i : Nat} {n : Node} (h : g[i]? = some n) : g.node i = n := by
  simp [node, Array.getD_eq_getD_getElem?, h]

def children (g : Graph) (i : Nat) : List Nat :=
  match (g.node i).body with
  | .scalar _ => []
  | .seq is => is
  | .map es => es.flatMap fun e => [e.1, e.2]

end Graph

theorem held_of_mem_items {g : Graph} {ts : List Tree} {is : List Nat} (ht : AreTexts ts)
    (h : ItemsHeldAt g ts is) : ∀ j ∈ is, Held g j := by
  induction ts generalizing is with
  | nil =>
    obtain rfl : is = [] := h
    simp
  | cons t ts ih =>
    obtain ⟨j, js, rfl, hj, hjs⟩ := h
    rintro k (_ | hk)
    · exact ⟨t, ht.1, hj⟩
    · exact ih ht.2 hjs k ‹_›

theorem held_of_mem_entries {g : Graph} {ts : List (Tree × Tree)} {es : List (Nat × Nat)}
    (ht : AreEntries ts) (h : EntriesHeldAt g ts es) :
    ∀ e ∈ es, IsKey g e.1 ∧ Held g e.1 ∧ Held g e.2 := by
  induction ts generalizing es with
  | nil =>
    obtain rfl : es = [] := h
    simp
  | cons kv ts ih =>
    obtain ⟨k, v⟩ := kv
    obtain ⟨i, j, js, rfl, ⟨hi, hj⟩, hjs⟩ := h
    obtain ⟨⟨hk, hkey, hv⟩, hts⟩ := ht
    rintro e (_ | he)
    · refine ⟨?_, ⟨k, hk, hi⟩, ⟨v, hv, hj⟩⟩
      rcases k with _ | ⟨p, t, plain⟩ | _ | _
      · cases hkey
      · exact ⟨t, hi⟩
      · cases hkey
      · cases hkey
    · exact ih hts hjs e ‹_›

theorem Held.cases {g : Graph} {i : Nat} (h : Held g i) :
    (∃ t, g[i]? = some ⟨.text, .scalar t⟩) ∨
      (∃ is, g[i]? = some ⟨.seq, .seq is⟩ ∧ ∀ j ∈ is, Held g j) ∨
        ∃ es, g[i]? = some ⟨.map, .map es⟩ ∧
          ∀ e ∈ es, IsKey g e.1 ∧ Held g e.1 ∧ Held g e.2 := by
  obtain ⟨t, ht, hi⟩ := h
  rcases t with _ | ⟨p, t, plain⟩ | ⟨p, items⟩ | ⟨p, entries⟩
  · exact ht.elim
  · exact Or.inl ⟨t, hi⟩
  · obtain ⟨is, hg, his⟩ := hi
    exact Or.inr (Or.inl ⟨is, hg, held_of_mem_items ht.2 his⟩)
  · obtain ⟨es, hg, hes⟩ := hi
    exact Or.inr (Or.inr ⟨es, hg, held_of_mem_entries ht.2.1 hes⟩)

namespace Document

def firstCell (g : Graph) (i : Nat) : Cell :=
  match (g.node i).body with
  | .scalar t => .scalar (.text t)
  | _ => .list []

namespace Site

/-! ### Visits -/

def HasCell (s : Site) (i : Nat) : Prop := ∃ c, s.cells[i]? = some (some c)

structure Visited (g : Graph) (s : Site) : Prop where
  graph : s.graph = g
  size : s.cells.size = g.size
  cell : ∀ i c, s.cells[i]? = some (some c) → Held g i ∧ c = firstCell g i
  pending : ∀ i ∈ s.pending, Held g i ∧ ¬ IsKey g i

/-- What is left to do: containers that wait, and nodes without a cell. -/
def todo (s : Site) : Nat := s.pending.length + s.cells.countP (·.isNone)

/-- Visits only add cells, and a container that gets one waits. -/
structure Grows (g : Graph) (s s' : Site) : Prop where
  hasCell : ∀ i, s.HasCell i → s'.HasCell i
  pending : ∀ i ∈ s.pending, i ∈ s'.pending
  fresh : ∀ i, s'.HasCell i → s.HasCell i ∨ i ∈ s'.pending ∨ g.children i = []
  todo : s'.todo ≤ s.todo

theorem Grows.refl (g : Graph) (s : Site) : Grows g s s :=
  ⟨fun _ => id, fun _ => id, fun _ => Or.inl, Nat.le_refl _⟩

theorem Grows.trans {g : Graph} {s s' s'' : Site} (h : Grows g s s') (h' : Grows g s' s'') :
    Grows g s s'' := by
  refine ⟨fun i hi => h'.hasCell i (h.hasCell i hi), fun i hi => h'.pending i (h.pending i hi),
    fun i hi => ?_, Nat.le_trans h'.todo h.todo⟩
  rcases h'.fresh i hi with hi | hi | hi
  · rcases h.fresh i hi with hi | hi | hi
    · exact Or.inl hi
    · exact Or.inr (Or.inl (h'.pending i hi))
    · exact Or.inr (Or.inr hi)
  · exact Or.inr (Or.inl hi)
  · exact Or.inr (Or.inr hi)

theorem getElem?_set {s : Site} {i : Nat} {c : Cell} (hi : i < s.cells.size) (j : Nat) :
    (s.set i c).cells[j]? = if j = i then some (some c) else s.cells[j]? := by
  rw [set, Array.getElem?_setIfInBounds]
  by_cases hj : i = j
  · subst hj
    simp [hi]
  · rw [if_neg hj, if_neg (Ne.symm hj)]

theorem countP_set {s : Site} {i : Nat} {c : Cell} (hi : s.cells[i]? = some none) :
    (s.set i c).cells.countP (·.isNone) + 1 = s.cells.countP (·.isNone) := by
  obtain ⟨hlt, hnone⟩ := Array.getElem?_eq_some_iff.mp hi
  have hpos : 0 < s.cells.countP (·.isNone) :=
    Array.countP_pos_iff.mpr ⟨none, Array.mem_of_getElem? hi, rfl⟩
  rw [set, Array.setIfInBounds_def, dif_pos hlt]
  simp only [Array.countP_set, hnone]
  simp
  omega

/-- A node gets its cell; it waits unless it refers to nothing. -/
theorem grows_set {g : Graph} {s : Site} (hs : Visited g s) {i : Nat} (hi : Held g i)
    (hn : s.cells[i]? = some none) (extra : List Nat)
    (he : extra = [i] ∧ ¬ IsKey g i ∨ extra = [] ∧ g.children i = []) :
    Visited g { s.set i (firstCell g i) with pending := s.pending ++ extra } ∧
      HasCell { s.set i (firstCell g i) with pending := s.pending ++ extra } i ∧
        Grows g s { s.set i (firstCell g i) with pending := s.pending ++ extra } := by
  have hlt := (Array.getElem?_eq_some_iff.mp hn).1
  have hget := getElem?_set (c := firstCell g i) hlt
  refine ⟨⟨hs.graph, ?_, fun j c hj => ?_, fun j hj => ?_⟩, ⟨firstCell g i, ?_⟩,
    ⟨fun j hj => ?_, fun j hj => List.mem_append_left _ hj, fun j hj => ?_, ?_⟩⟩
  · simp [set, hs.size]
  · rw [hget] at hj
    split at hj
    · next h => exact ⟨h ▸ hi, by rw [h]; exact (Option.some.inj (Option.some.inj hj)).symm⟩
    · exact hs.cell j c hj
  · rcases List.mem_append.mp hj with hj | hj
    · exact hs.pending j hj
    · rcases he with ⟨rfl, hkey⟩ | ⟨rfl, -⟩
      · rw [List.mem_singleton.mp hj]
        exact ⟨hi, hkey⟩
      · cases hj
  · rw [hget, if_pos rfl]
  · obtain ⟨c, hc⟩ := hj
    by_cases h : j = i
    · exact ⟨firstCell g i, by rw [hget, if_pos h]⟩
    · exact ⟨c, by rw [hget, if_neg h, hc]⟩
  · obtain ⟨c, hc⟩ := hj
    rw [hget] at hc
    split at hc
    · next h =>
      rcases he with ⟨rfl, -⟩ | ⟨-, hnone⟩
      · exact Or.inr (Or.inl (by simp [h]))
      · exact Or.inr (Or.inr (h ▸ hnone))
    · exact Or.inl ⟨c, hc⟩
  · have hcount := countP_set (c := firstCell g i) hn
    have hlen : extra.length ≤ 1 := by
      rcases he with ⟨rfl, -⟩ | ⟨rfl, -⟩ <;> simp
    simp only [todo, List.length_append]
    omega

/-- A container waits for its turn. -/
theorem visit_of_container {g : Graph} {s : Site} (hs : Visited g s) {i : Nat} (hi : Held g i)
    (hc : s.cells[i]? = some none) {tag : Tag} {body : Body} (h : g[i]? = some ⟨tag, body⟩)
    (htag : tag.isContainer) (hbody : ∀ t, body ≠ .scalar t) :
    ∃ s', s.visit i = .ok s' ∧ Visited g s' ∧ s'.HasCell i ∧ Grows g s s' := by
  have hnode := Graph.node_of_getElem? h
  have hkey : ¬ IsKey g i := by
    rintro ⟨t, ht⟩
    rw [h] at ht
    cases ht
    exact hbody t rfl
  have hfirst : firstCell g i = .list [] := by
    unfold firstCell
    rw [hnode]
    cases body with
    | scalar t => exact absurd rfl (hbody t)
    | _ => rfl
  have hvisit : s.visit i = .ok { s.set i (.list []) with pending := s.pending ++ [i] } := by
    have hnone : s.cells.getD i none = none := by simp [hc]
    have ht : s.graph.tag i = tag := by rw [hs.graph, Graph.tag, hnode]
    unfold visit
    rw [hnone, ht]
    cases tag <;> first
      | rfl
      | cases htag
  refine ⟨_, hvisit, ?_⟩
  rw [← hfirst]
  exact grows_set hs hi hc [i] (Or.inl ⟨rfl, hkey⟩)

theorem visit_of_held {g : Graph} {s : Site} (hs : Visited g s) {i : Nat} (hi : Held g i) :
    ∃ s', s.visit i = .ok s' ∧ Visited g s' ∧ s'.HasCell i ∧ Grows g s s' := by
  have hlt : i < s.cells.size := by
    rw [hs.size]
    rcases hi.cases with ⟨_, h⟩ | ⟨_, h, -⟩ | ⟨_, h, -⟩ <;>
      exact (Array.getElem?_eq_some_iff.mp h).1
  obtain ⟨c, hc⟩ : ∃ c, s.cells[i]? = some c := ⟨_, Array.getElem?_eq_getElem hlt⟩
  cases c with
  | some c =>
    refine ⟨s, ?_, hs, ⟨c, hc⟩, .refl g s⟩
    simp [visit, hc]
  | none =>
    rcases hi.cases with ⟨t, h⟩ | ⟨is, h, -⟩ | ⟨es, h, -⟩
    · have hnode := Graph.node_of_getElem? h
      have hgrows := grows_set hs hi hc []
        (Or.inr ⟨rfl, by simp [Graph.children, hnode]⟩)
      have htext : g.text i = .ok t := by
        simp [Graph.text, Graph.scalarText, hnode]
      have hscalar : s.scalarAt i = .ok (.text t) := by
        simp only [scalarAt, hs.graph, htext, bind, Except.bind, Graph.tag, hnode]
        rfl
      refine ⟨_, ?_, hgrows⟩
      simp [visit, hc, hs.graph, Graph.tag, hnode, Tag.isContainer, hscalar, firstCell, Except.map]
      rfl
    · exact visit_of_container hs hi hc h rfl nofun
    · exact visit_of_container hs hi hc h rfl nofun

theorem visitAll_of_held {g : Graph} {s : Site} (hs : Visited g s) {is : List Nat}
    (his : ∀ i ∈ is, Held g i) :
    ∃ s', s.visitAll is = .ok s' ∧ Visited g s' ∧ (∀ i ∈ is, s'.HasCell i) ∧ Grows g s s' := by
  induction is generalizing s with
  | nil => exact ⟨s, rfl, hs, by simp, .refl g s⟩
  | cons i is ih =>
    obtain ⟨s₁, hv, hs₁, hi, hg₁⟩ := visit_of_held hs (his i List.mem_cons_self)
    obtain ⟨s₂, hvs, hs₂, hall, hg₂⟩ := ih hs₁ fun j hj => his j (List.mem_cons_of_mem _ hj)
    refine ⟨s₂, ?_, hs₂, fun j hj => ?_, hg₁.trans hg₂⟩
    · simp only [visitAll, List.foldlM_cons, hv, bind, Except.bind] at hvs ⊢
      exact hvs
    · rcases List.mem_cons.mp hj with rfl | hj
      · exact hg₂.hasCell _ hi
      · exact hall j hj

theorem visitEntries_of_held {g : Graph} {s : Site} (hs : Visited g s) {es : List (Nat × Nat)}
    (hes : ∀ e ∈ es, IsKey g e.1 ∧ Held g e.1 ∧ Held g e.2) :
    ∃ s', s.visitEntries es = .ok s' ∧ Visited g s' ∧
      (∀ e ∈ es, s'.HasCell e.1 ∧ s'.HasCell e.2) ∧ Grows g s s' := by
  induction es generalizing s with
  | nil => exact ⟨s, rfl, hs, by simp, .refl g s⟩
  | cons e es ih =>
    obtain ⟨⟨t, hkey⟩, hk, hv⟩ := hes e List.mem_cons_self
    obtain ⟨s₁, hv₁, hs₁, hk₁, hg₁⟩ := visit_of_held hs hk
    obtain ⟨s₂, hv₂, hs₂, hval, hg₂⟩ := visit_of_held hs₁ hv
    obtain ⟨s₃, hvs, hs₃, hall, hg₃⟩ := ih hs₂ fun x hx => hes x (List.mem_cons_of_mem _ hx)
    have hentry : s.visitEntry e = .ok s₂ := by
      simp [visitEntry, hv₁, bind, Except.bind, hs₁.graph, Graph.tag, Graph.node_of_getElem? hkey,
        Tag.isContainer, hv₂]
    refine ⟨s₃, ?_, hs₃, fun x hx => ?_, (hg₁.trans hg₂).trans hg₃⟩
    · simp only [visitEntries, List.foldlM_cons, hentry, bind, Except.bind] at hvs ⊢
      exact hvs
    · rcases List.mem_cons.mp hx with rfl | hx
      · exact ⟨hg₃.hasCell _ (hg₂.hasCell _ hk₁), hg₃.hasCell _ hval⟩
      · exact hall x hx

/-! ### Expansion -/

theorem firstMerge_of_isKey {g : Graph} {es : List (Nat × Nat)} (h : ∀ e ∈ es, IsKey g e.1) :
    g.firstMerge es = none := by
  induction es with
  | nil => rfl
  | cons e es ih =>
    obtain ⟨t, ht⟩ := h e List.mem_cons_self
    rw [Graph.firstMerge, ih fun x hx => h x (List.mem_cons_of_mem _ hx)]
    simp [Graph.tag, Graph.node_of_getElem? ht]

theorem settleKeys_of_isKey {g : Graph} {es : List (Nat × Nat)} (h : ∀ e ∈ es, IsKey g e.1) :
    g.settleKeys es = g := by
  induction es with
  | nil => rfl
  | cons e es ih =>
    obtain ⟨t, ht⟩ := h e List.mem_cons_self
    have hg := ih fun x hx => h x (List.mem_cons_of_mem _ hx)
    simpa [Graph.settleKeys, Graph.tag, Graph.node_of_getElem? ht] using hg

theorem flatten_of_isKey {g : Graph} {i : Nat} (h : ∀ e ∈ g.entries i, IsKey g e.1) :
    g.flatten i = .ok g := by
  rw [Graph.flatten, Graph.flattenFrom, firstMerge_of_isKey h]
  simp [settleKeys_of_isKey h]

theorem expand_of_held {g : Graph} {s : Site} (hs : Visited g s) {i : Nat} (hi : Held g i)
    (hkey : ¬ IsKey g i) :
    ∃ s', s.expand i = .ok s' ∧ Visited g s' ∧ (∀ j ∈ g.children i, s'.HasCell j) ∧
      Grows g s s' := by
  rcases hi.cases with h | ⟨is, h, his⟩ | ⟨es, h, hes⟩
  · exact absurd h hkey
  · have hnode := Graph.node_of_getElem? h
    obtain ⟨s', hv, hs', hall, hg⟩ := visitAll_of_held hs his
    refine ⟨s', ?_, hs', ?_, hg⟩
    · simp only [expand, hs.graph, Graph.tag, hnode, hv]
    · simpa [Graph.children, hnode] using hall
  · have hnode := Graph.node_of_getElem? h
    have hentries : g.entries i = es := by simp [Graph.entries, hnode]
    have hflat : g.flatten i = .ok g := flatten_of_isKey (hentries ▸ fun e he => (hes e he).1)
    obtain ⟨s', hv, hs', hall, hg⟩ := visitEntries_of_held hs hes
    have hsame : { s with graph := g } = s := by
      rw [← hs.graph]
    refine ⟨s', ?_, hs', ?_, hg⟩
    · simp only [expand, hs.graph, Graph.tag, hnode, hflat, bind, Except.bind, hsame, hentries, hv]
    · intro j hj
      simp only [Graph.children, hnode, List.mem_flatMap, List.mem_cons, List.not_mem_nil,
        or_false] at hj
      rcases hj with ⟨e, he, rfl | rfl⟩
      · exact (hall e he).1
      · exact (hall e he).2

/-- Everything that a node with a cell refers to has one, unless the node waits. -/
def Closed (g : Graph) (s : Site) : Prop :=
  ∀ i, s.HasCell i → i ∈ s.pending ∨ ∀ j ∈ g.children i, s.HasCell j

theorem build_of_visited {g : Graph} (fuel : Nat) {s : Site} (hs : Visited g s) (hc : Closed g s)
    (hf : s.todo ≤ fuel) :
    ∃ s', s.build fuel = .ok s' ∧ Visited g s' ∧ Closed g s' ∧ s'.pending = [] ∧
      ∀ i, s.HasCell i → s'.HasCell i := by
  -- every expansion takes one from what is left to do
  induction fuel generalizing s with
  | zero =>
    have hnil : s.pending = [] := List.eq_nil_of_length_eq_zero (by simp only [todo] at hf; omega)
    exact ⟨s, rfl, hs, hc, hnil, fun _ => id⟩
  | succ fuel ih =>
    cases hp : s.pending with
    | nil => exact ⟨s, by rw [build, hp], hs, hc, hp, fun _ => id⟩
    | cons i rest =>
      let s₀ : Site := { s with pending := rest }
      have hmem : i ∈ s.pending := hp ▸ List.mem_cons_self
      have hs₀ : Visited g s₀ := ⟨hs.graph, hs.size, hs.cell, fun j hj =>
        hs.pending j (hp ▸ List.mem_cons_of_mem _ hj)⟩
      obtain ⟨s₁, he, hs₁, hall, hg⟩ := expand_of_held hs₀ (hs.pending i hmem).1
        (hs.pending i hmem).2
      have hclosed : Closed g s₁ := by
        intro j hj
        -- the node that is expanded waits no more, and the nodes below it have their cells
        rcases hg.fresh j hj with hj | hj | hj
        · rcases hc j hj with hw | hw
          · rcases List.mem_cons.mp (hp ▸ hw) with rfl | hw
            · exact Or.inr hall
            · exact Or.inl (hg.pending j hw)
          · exact Or.inr fun k hk => hg.hasCell k (hw k hk)
        · exact Or.inl hj
        · exact Or.inr (by simp [hj])
      have htodo : s₁.todo ≤ fuel := by
        have hless : s₀.todo + 1 = s.todo := by
          simp only [todo, s₀, hp, List.length_cons]
          omega
        have hle := hg.todo
        omega
      obtain ⟨s', hb, hs', hc', hnil, hmore⟩ := ih hs₁ hclosed htodo
      refine ⟨s', ?_, hs', hc', hnil, fun j hj => hmore j (hg.hasCell j hj)⟩
      rw [build, hp]
      simp only [s₀] at he
      simp only [he, bind, Except.bind, hb]

/-! ### The finished document -/

theorem cell_document {g : Graph} {s : Site} (hs : Visited g s) {i : Nat} (hi : s.HasCell i) :
    s.document.cell i =
      finished (s.cells.map fun c => c.getD default) g i (firstCell g i) := by
  obtain ⟨c, hc⟩ := hi
  obtain rfl := (hs.cell i c hc).2
  simp [document, Document.cell, hs.graph, hc]

def textOf (g : Graph) (i : Nat) : Text :=
  match (g.node i).body with
  | .scalar t => t
  | _ => []

theorem sameKey_of_isKey {g : Graph} {s : Site} (hs : Visited g s) {i j : Nat} (hi : IsKey g i)
    (hj : IsKey g j) (hci : s.HasCell i) (hcj : s.HasCell j) (hne : textOf g i ≠ textOf g j) :
    sameKey (s.cells.map fun c => c.getD default) i j = false := by
  have hcell {k : Nat} (hk : IsKey g k) (hck : s.HasCell k) :
      (s.cells.map fun c => c.getD default).getD k default = .scalar (.text (textOf g k)) := by
    obtain ⟨t, ht⟩ := hk
    obtain ⟨c, hc⟩ := hck
    obtain rfl := (hs.cell k c hc).2
    simp [hc, firstCell, textOf, Graph.node_of_getElem? ht]
  have hij : i ≠ j := by
    rintro rfl
    exact hne rfl
  simp [sameKey, hcell hi hci, hcell hj hcj, hij, Scalar.same, hne]

theorem put_of_fresh {same : Nat → Nat → Bool} {k : Nat} (v : Nat) {es : List (Nat × Nat)}
    (h : ∀ e ∈ es, same e.1 k = false) : put same k v es = es ++ [(k, v)] := by
  induction es with
  | nil => rfl
  | cons e es ih =>
    rw [put, if_neg (by simp [h e List.mem_cons_self]),
      ih fun x hx => h x (List.mem_cons_of_mem _ hx)]
    rfl

theorem entriesOf_of_pairwise {cells : Array Cell} {es : List (Nat × Nat)}
    (h : es.Pairwise fun e e' => sameKey cells e.1 e'.1 = false) : entriesOf cells es = es := by
  have hfold : ∀ as bs : List (Nat × Nat),
      (as ++ bs).Pairwise (fun e e' => sameKey cells e.1 e'.1 = false) →
        bs.foldl (fun acc e => put (sameKey cells) e.1 e.2 acc) as = as ++ bs := by
    intro as bs hp
    induction bs generalizing as with
    | nil => simp
    | cons b bs ih =>
      have hb : ∀ e ∈ as, sameKey cells e.1 b.1 = false := fun e he =>
        (List.pairwise_append.mp hp).2.2 e he b List.mem_cons_self
      rw [List.foldl_cons, put_of_fresh _ hb, ih _ (by simpa using hp)]
      simp
  exact hfold [] es h

theorem texts_of_entriesHeldAt {g : Graph} {ts : List (Tree × Tree)} {es : List (Nat × Nat)}
    (ht : AreEntries ts) (h : EntriesHeldAt g ts es) :
    ts.map (·.1.text?) = es.map fun e => some (textOf g e.1) := by
  induction ts generalizing es with
  | nil =>
    obtain rfl : es = [] := h
    rfl
  | cons kv ts ih =>
    obtain ⟨k, v⟩ := kv
    obtain ⟨i, j, js, rfl, ⟨hi, -⟩, hjs⟩ := h
    obtain ⟨⟨-, hkey, -⟩, hts⟩ := ht
    rcases k with _ | ⟨p, t, plain⟩ | _ | _
    · cases hkey
    · have htext : textOf g i = t := by simp [textOf, Graph.node_of_getElem? hi]
      rw [List.map_cons, List.map_cons, ih hts hjs, htext]
      rfl
    · cases hkey
    · cases hkey

/-- Different texts make different keys. -/
theorem entriesOf_of_heldAt {g : Graph} {s : Site} (hs : Visited g s)
    {ts : List (Tree × Tree)} {es : List (Nat × Nat)} (ht : AreEntries ts)
    (h : EntriesHeldAt g ts es) (hn : (ts.map (·.1.text?)).Nodup)
    (hc : ∀ e ∈ es, s.HasCell e.1) : entriesOf (s.cells.map fun c => c.getD default) es = es := by
  refine entriesOf_of_pairwise ?_
  -- keys are different texts in the tree, and so they are in the graph
  rw [texts_of_entriesHeldAt ht h, List.Nodup, List.pairwise_map] at hn
  refine hn.imp_of_mem fun he he' hne => ?_
  have hkey {e : Nat × Nat} (he : e ∈ es) := (held_of_mem_entries ht h e he).1
  exact sameKey_of_isKey hs (hkey he) (hkey he') (hc _ he) (hc _ he') fun htext =>
    hne (congrArg some htext)

end Site

end Document

/-! ### What a document shows -/

mutual

/-- A document shows a tree of texts at a number. -/
def Tree.ShownAt (d : Document) : Tree → Nat → Prop
  | .alias _, _ => False
  | .scalar _ t _, i => d.cell i = .scalar (.text t)
  | .seq _ items, i => ∃ is, d.cell i = .list (is.map .cell) ∧ ItemsShownAt d items is
  | .map _ entries, i => ∃ es, d.cell i = .map es ∧ EntriesShownAt d entries es

def ItemsShownAt (d : Document) : List Tree → List Nat → Prop
  | [], is => is = []
  | t :: ts, is => ∃ j js, is = j :: js ∧ t.ShownAt d j ∧ ItemsShownAt d ts js

def EntriesShownAt (d : Document) : List (Tree × Tree) → List (Nat × Nat) → Prop
  | [], is => is = []
  | (k, v) :: es, is =>
    ∃ i j js, is = (i, j) :: js ∧ (k.ShownAt d i ∧ v.ShownAt d j) ∧ EntriesShownAt d es js

end

namespace Document

def Complete (g : Graph) (s : Site) : Prop :=
  ∀ i, s.HasCell i → ∀ j ∈ g.children i, s.HasCell j

variable {g : Graph} {s : Site}

mutual

theorem shownAt_of_heldAt (hs : Site.Visited g s) (hc : Complete g s) : ∀ (t : Tree), t.IsText →
    ∀ i, t.HeldAt g i → s.HasCell i → t.ShownAt s.document i
  | .alias _, h, _, _, _ => h.elim
  | .scalar p t plain, _, i, hi, hcell => by
    have hnode := Graph.node_of_getElem? hi
    rw [Tree.ShownAt, Site.cell_document hs hcell]
    simp [Site.finished, firstCell, hnode]
  | .seq p items, h, i, hi, hcell => by
    obtain ⟨is, hg, his⟩ := hi
    have hnode := Graph.node_of_getElem? hg
    refine ⟨is, ?_, itemsShownAt_of_heldAt hs hc items h.2 is his fun j hj => hc i hcell j ?_⟩
    · rw [Site.cell_document hs hcell]
      simp [Site.finished, firstCell, hnode, Graph.tag]
    · simpa [Graph.children, hnode] using hj
  | .map p entries, h, i, hi, hcell => by
    obtain ⟨es, hg, hes⟩ := hi
    have hnode := Graph.node_of_getElem? hg
    have hcells : ∀ e ∈ es, s.HasCell e.1 ∧ s.HasCell e.2 := fun e he =>
      have hchild (j : Nat) (hj : j = e.1 ∨ j = e.2) : j ∈ g.children i := by
        simp only [Graph.children, hnode, List.mem_flatMap]
        exact ⟨e, he, by simpa using hj⟩
      ⟨hc i hcell _ (hchild _ (Or.inl rfl)), hc i hcell _ (hchild _ (Or.inr rfl))⟩
    refine ⟨es, ?_, entriesShownAt_of_heldAt hs hc entries h.2.1 es hes hcells⟩
    rw [Site.cell_document hs hcell]
    simp [Site.finished, firstCell, hnode, Graph.tag,
      Site.entriesOf_of_heldAt hs h.2.1 hes h.2.2 fun e he => (hcells e he).1]

theorem itemsShownAt_of_heldAt (hs : Site.Visited g s) (hc : Complete g s) :
    ∀ (ts : List Tree), AreTexts ts → ∀ is, ItemsHeldAt g ts is →
      (∀ j ∈ is, s.HasCell j) → ItemsShownAt s.document ts is
  | [], _, _, h, _ => h
  | t :: ts, ht, is, h, hcells => by
    obtain ⟨j, js, rfl, hj, hjs⟩ := h
    exact ⟨j, js, rfl, shownAt_of_heldAt hs hc t ht.1 j hj (hcells j List.mem_cons_self),
      itemsShownAt_of_heldAt hs hc ts ht.2 js hjs fun k hk => hcells k (List.mem_cons_of_mem _ hk)⟩

theorem entriesShownAt_of_heldAt (hs : Site.Visited g s) (hc : Complete g s) :
    ∀ (ts : List (Tree × Tree)), AreEntries ts → ∀ es, EntriesHeldAt g ts es →
      (∀ e ∈ es, s.HasCell e.1 ∧ s.HasCell e.2) → EntriesShownAt s.document ts es
  | [], _, _, h, _ => h
  | (k, v) :: ts, ht, es, h, hcells => by
    obtain ⟨i, j, js, rfl, ⟨hi, hj⟩, hjs⟩ := h
    have hij := hcells (i, j) List.mem_cons_self
    exact ⟨i, j, js, rfl, ⟨shownAt_of_heldAt hs hc k ht.1.1 i hi hij.1,
      shownAt_of_heldAt hs hc v ht.1.2.2 j hj hij.2⟩,
      entriesShownAt_of_heldAt hs hc ts ht.2 js hjs
        fun e he => hcells e (List.mem_cons_of_mem _ he)⟩

end

theorem ofGraph_of_isText {t : Tree} (h : t.IsText) :
    ∃ g d, Graph.ofTree t = .ok g ∧ ofGraph g = .ok d ∧ t.ShownAt d d.root := by
  obtain ⟨g, hg, ht⟩ := ofTree_of_isText h
  have hnone : ∀ i, ¬ (Site.ofGraph g).HasCell i := by
    rintro i ⟨c, hc⟩
    simp [Site.ofGraph, Array.getElem?_replicate] at hc
  have hs : Site.Visited g (Site.ofGraph g) :=
    ⟨rfl, by simp [Site.ofGraph], fun i c hc => absurd ⟨c, hc⟩ (hnone i), fun i hi => by cases hi⟩
  -- the root is visited first, and what it refers to as long as anything waits
  obtain ⟨s₁, hv, hs₁, hroot, hgrows⟩ := Site.visit_of_held hs ⟨t, h, ht⟩
  have hclosed : Site.Closed g s₁ := by
    intro i hi
    rcases hgrows.fresh i hi with hi | hi | hi
    · exact absurd hi (hnone i)
    · exact Or.inl hi
    · exact Or.inr (by simp [hi])
  have htodo : (Site.ofGraph g).todo = g.size := by
    simp [Site.todo, Site.ofGraph, Array.countP_replicate]
  obtain ⟨s₂, hb, hs₂, hc₂, hnil, hmore⟩ := Site.build_of_visited (g.size + 1) hs₁ hclosed
    (Nat.le_succ_of_le (htodo ▸ hgrows.todo))
  have hcomplete : Complete g s₂ := fun i hi => (hc₂ i hi).resolve_left (by simp [hnil])
  refine ⟨g, s₂.document, hg, ?_, shownAt_of_heldAt hs₂ hcomplete t h 0 ht (hmore 0 hroot)⟩
  simp only [ofGraph, hv, hb, bind, Except.bind]
  rfl

end Document

end AuthMap.Yaml
