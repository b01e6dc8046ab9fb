import Mathlib.Data.List.Basic
import AuthMap.Yaml.Graph

/-! Trees of texts and their graphs. The nodes of a tree are numbered from its root on, and each
stays where it was first put. -/

namespace AuthMap.Yaml

/-! ### Trees of texts -/

def Tree.text? : Tree → Option Text
  | .scalar _ t _ => some t
  | _ => none

mutual

/-- Trees whose scalars are all texts, and whose mappings have different texts for keys. There are
no anchors, aliases or tags. -/
def Tree.IsText : Tree → Prop
  | .alias _ => False
  | .scalar p t plain => p = {} ∧ (plain → Tag.ofText t = .text)
  | .seq p items => p = {} ∧ AreTexts items
  | .map p entries => p = {} ∧ AreEntries entries ∧ (entries.map (·.1.text?)).Nodup

def AreTexts : List Tree → Prop
  | [] => True
  | t :: ts => t.IsText ∧ AreTexts ts

def AreEntries : List (Tree × Tree) → Prop
  | [] => True
  | (k, v) :: es => (k.IsText ∧ k.text?.isSome ∧ v.IsText) ∧ AreEntries es

end

mutual

def Tree.HeldAt (g : Graph) : Tree → Nat → Prop
  | .alias _, _ => False
  | .scalar _ t _, i => g[i]? = some ⟨.text, .scalar t⟩
  | .seq _ items, i => ∃ is, g[i]? = some ⟨.seq, .seq is⟩ ∧ ItemsHeldAt g items is
  | .map _ entries, i => ∃ es, g[i]? = some ⟨.map, .map es⟩ ∧ EntriesHeldAt g entries es

def ItemsHeldAt (g : Graph) : List Tree → List Nat → Prop
  | [], is => is = []
  | t :: ts, is => ∃ j js, is = j :: js ∧ t.HeldAt g j ∧ ItemsHeldAt g ts js

def EntriesHeldAt (g : Graph) : List (Tree × Tree) → List (Nat × Nat) → Prop
  | [], is => is = []
  | (k, v) :: es, is =>
    ∃ i j js, is = (i, j) :: js ∧ (k.HeldAt g i ∧ v.HeldAt g j) ∧ EntriesHeldAt g es js

end

/-! ### Numbering -/

def StandsAt (g : Graph) (base : Nat) (nodes : Graph) : Prop :=
  ∀ k n, nodes[k]? = some n → g[base + k]? = some n

theorem StandsAt.left {g : Graph} {base : Nat} {ns ms : Graph} (h : StandsAt g base (ns ++ ms)) :
    StandsAt g base ns := by
  intro k n hk
  refine h k n ?_
  rw [Array.getElem?_append_left (Array.getElem?_eq_some_iff.mp hk).1]
  exact hk

theorem StandsAt.right {g : Graph} {base : Nat} {ns ms : Graph} (h : StandsAt g base (ns ++ ms)) :
    StandsAt g (base + ns.size) ms := by
  intro k n hk
  rw [Nat.add_assoc]
  refine h (ns.size + k) n ?_
  rw [Array.getElem?_append_right (Nat.le_add_right _ _), Nat.add_sub_cancel_left]
  exact hk

theorem StandsAt.head {g : Graph} {base : Nat} {n : Node} {ms : Graph}
    (h : StandsAt g base (#[n] ++ ms)) : g[base]? = some n := by
  refine h 0 n ?_
  rw [Array.getElem?_append_left (by simp)]
  rfl

theorem modify_push (ns : Graph) (n : Node) (ms : Graph) (f : Node → Node) :
    (ns.push n ++ ms).modify ns.size f = ns ++ (#[f n] ++ ms) := by
  apply Array.ext_getElem?
  intro k
  rw [Array.getElem?_modify, ← Array.append_assoc, ← Array.push_eq_append]
  rcases Nat.lt_trichotomy k ns.size with hk | rfl | hk
  · rw [if_neg (by omega), Array.getElem?_append_left (by simp; omega),
      Array.getElem?_append_left (by simp; omega), Array.getElem?_push, Array.getElem?_push,
      if_neg (by omega), if_neg (by omega)]
  · rw [if_pos rfl, Array.getElem?_append_left (by simp), Array.getElem?_append_left (by simp)]
    simp
  · rw [if_neg (by omega), Array.getElem?_append_right (by simp; omega),
      Array.getElem?_append_right (by simp; omega)]
    simp

/-- Numbering adds nodes behind those that are there, and whatever has these nodes in their places
holds what was numbered. -/
def Numbers {α : Type} (held : Graph → α → Prop) (b : Numbering)
    (r : Except Fault (α × Numbering)) : Prop :=
  ∃ a nodes, r = .ok (a, { b with nodes := b.nodes ++ nodes }) ∧
    ∀ g, StandsAt g b.nodes.size nodes → held g a

/-- A container comes before its elements, and gets to know them after they are numbered. -/
theorem numbers_container {α : Type} {held : Graph → α → Prop} {b : Numbering} (tag : Tag)
    (empty : Body) {f : Numbering → Except Fault (α × Numbering)} (body : α → Body)
    (h : Numbers held { b with nodes := b.nodes.push ⟨tag, empty⟩ }
      (f { b with nodes := b.nodes.push ⟨tag, empty⟩ })) :
    Numbers (fun g i => i = b.nodes.size ∧ ∃ a, g[i]? = some ⟨tag, body a⟩ ∧ held g a) b (do
      let (i, b) ← b.add {} ⟨tag, empty⟩
      let (a, b) ← f b
      pure (i, b.setBody i (body a))) := by
  obtain ⟨a, nodes, hf, hheld⟩ := h
  -- the nodes behind the container stay in their places when it gets its body
  refine ⟨b.nodes.size, #[⟨tag, body a⟩] ++ nodes, ?_, fun g hg => ?_⟩
  · simp only [Numbering.add, bind, Except.bind, hf, pure, Except.pure, Numbering.setBody,
      modify_push]
  · refine ⟨rfl, a, hg.head, hheld g ?_⟩
    simpa using hg.right

mutual

theorem numbers_tree : ∀ (t : Tree), t.IsText → ∀ b : Numbering,
    Numbers (fun g i => i = b.nodes.size ∧ t.HeldAt g i) b (t.number b)
  | .alias _, h, _ => h.elim
  | .scalar p t plain, h, b => by
    obtain ⟨rfl, ht⟩ := h
    have htag : (if plain then Tag.ofText t else .text) = Tag.text := by
      split
      · next hp => exact ht hp
      · rfl
    refine ⟨b.nodes.size, #[⟨.text, .scalar t⟩], ?_, fun g hg => ⟨rfl, hg 0 _ rfl⟩⟩
    simp only [Tree.number, Numbering.add, Props.tagOr, htag, Array.push_eq_append]
  | .seq p items, h, b => by
    obtain ⟨rfl, hitems⟩ := h
    have hn := numbers_container (b := b) .seq (.seq []) .seq (numbers_items items hitems _)
    simpa only [Tree.number, Tree.HeldAt, Props.tagOr] using hn
  | .map p entries, h, b => by
    obtain ⟨rfl, hentries, -⟩ := h
    have hn := numbers_container (b := b) .map (.map []) .map (numbers_entries entries hentries _)
    simpa only [Tree.number, Tree.HeldAt, Props.tagOr] using hn

theorem numbers_items : ∀ (ts : List Tree), AreTexts ts → ∀ b : Numbering,
    Numbers (fun g is => ItemsHeldAt g ts is) b (numberItems ts b)
  | [], _, b => ⟨[], #[], by simp [numberItems], fun _ _ => rfl⟩
  | t :: ts, h, b => by
    obtain ⟨i, ns, hn, hheld⟩ := numbers_tree t h.1 b
    obtain ⟨is, ms, hm, hrest⟩ := numbers_items ts h.2 { b with nodes := b.nodes ++ ns }
    refine ⟨i :: is, ns ++ ms, ?_, fun g hg => ⟨i, is, rfl, (hheld g hg.left).2, hrest g ?_⟩⟩
    · simp only [numberItems, hn, hm, bind, Except.bind, pure, Except.pure, Array.append_assoc]
    · simpa using hg.right

theorem numbers_entries : ∀ (es : List (Tree × Tree)), AreEntries es → ∀ b : Numbering,
    Numbers (fun g is => EntriesHeldAt g es is) b (numberEntries es b)
  | [], _, b => ⟨[], #[], by simp [numberEntries], fun _ _ => rfl⟩
  | (k, v) :: es, h, b => by
    obtain ⟨i, ks, hk, hkey⟩ := numbers_tree k h.1.1 b
    obtain ⟨j, vs, hv, hvalue⟩ := numbers_tree v h.1.2.2 { b with nodes := b.nodes ++ ks }
    obtain ⟨is, ms, hm, hrest⟩ := numbers_entries es h.2 { b with nodes := b.nodes ++ ks ++ vs }
    refine ⟨(i, j) :: is, ks ++ (vs ++ ms), ?_, fun g hg =>
      ⟨i, j, is, rfl, ⟨(hkey g hg.left).2, (hvalue g ?_).2⟩, hrest g ?_⟩⟩
    · rw [← Array.append_assoc, ← Array.append_assoc]
      simp only [numberEntries, hk, hv, hm, bind, Except.bind, pure, Except.pure]
    · simpa using hg.right.left
    · simpa [Nat.add_assoc] using hg.right.right

end

theorem ofTree_of_isText {t : Tree} (h : t.IsText) :
    ∃ g, Graph.ofTree t = .ok g ∧ t.HeldAt g 0 := by
  obtain ⟨i, nodes, hn, hheld⟩ := numbers_tree t h {}
  obtain ⟨hi, ht⟩ := hheld nodes fun k n hk => by simpa using hk
  subst hi
  refine ⟨nodes, ?_, ht⟩
  simp only [Graph.ofTree, hn, bind, Except.bind, pure, Except.pure]
  simp

end AuthMap.Yaml
