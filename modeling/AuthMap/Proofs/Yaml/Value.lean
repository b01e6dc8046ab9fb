import Mathlib.Data.List.Basic
import AuthMap.Yaml.Document

/-! The plain value that a document shows. There is no more than one. -/

namespace AuthMap.Yaml

namespace Document

mutual

/-- The value stands at a number, with all that is in it. -/
def Holds (d : Document) : Json → Nat → Prop
  | .null, i => d.cell i = .scalar .null
  | .bool b, i => d.cell i = .scalar (.bool b)
  | .int n, i => d.cell i = .scalar (.int n)
  | .real x, i => d.cell i = .scalar (.real x)
  | .str t, i => d.cell i = .scalar (.text t)
  | .arr js, i => ∃ is : List Nat, d.cell i = .list (is.map .cell) ∧ HoldsItems d js is
  | .obj fs, i => ∃ es, d.cell i = .map es ∧ HoldsFields d fs es

def HoldsItems (d : Document) : List Json → List Nat → Prop
  | [], is => is = []
  | j :: js, is => ∃ i is', is = i :: is' ∧ Holds d j i ∧ HoldsItems d js is'

def HoldsFields (d : Document) : List (String × Json) → List (Nat × Nat) → Prop
  | [], es => es = []
  | f :: fs, es => ∃ k i es', es = (k, i) :: es' ∧
      d.cell k = .scalar (.text (Text.ofString f.1)) ∧ Holds d f.2 i ∧ HoldsFields d fs es'

end

variable {d : Document}

theorem map_cell_injective : Function.Injective (List.map Element.cell) :=
  List.map_injective_iff.mpr fun _ _ => Element.cell.inj

mutual

theorem Holds.unique : ∀ (j j' : Json) (i : Nat), d.Holds j i → d.Holds j' i → j = j'
  | .null, j', i, h, h' | .bool _, j', i, h, h' | .int _, j', i, h, h' | .real _, j', i, h, h'
  | .str _, j', i, h, h' => by
    cases j' <;> simp_all [Holds]
  | .arr js, j', i, h, h' => by
    obtain ⟨is, hcell, his⟩ := h
    cases j' with
    | arr js' =>
      obtain ⟨is', hcell', his'⟩ := h'
      obtain rfl := map_cell_injective (Cell.list.inj (hcell.symm.trans hcell'))
      rw [HoldsItems.unique js js' is his his']
    | obj fs' =>
      obtain ⟨es, hcell', -⟩ := h'
      cases hcell.symm.trans hcell'
    | _ => cases hcell.symm.trans h'
  | .obj fs, j', i, h, h' => by
    obtain ⟨es, hcell, hes⟩ := h
    cases j' with
    | obj fs' =>
      obtain ⟨es', hcell', hes'⟩ := h'
      obtain rfl := Cell.map.inj (hcell.symm.trans hcell')
      rw [HoldsFields.unique fs fs' es hes hes']
    | arr js' =>
      obtain ⟨is, hcell', -⟩ := h'
      cases hcell.symm.trans hcell'
    | _ => cases hcell.symm.trans h'

theorem HoldsItems.unique : ∀ (js js' : List Json) (is : List Nat), HoldsItems d js is →
    HoldsItems d js' is → js = js'
  | [], [], is, h, h' => rfl
  | [], j' :: js', is, h, h' => by
    obtain ⟨i, is', rfl, -⟩ := h'
    cases h
  | j :: js, [], is, h, h' => by
    obtain ⟨i, is', rfl, -⟩ := h
    cases h'
  | j :: js, j' :: js', is, h, h' => by
    obtain ⟨i, is, rfl, hj, hjs⟩ := h
    obtain ⟨_, _, heq, hj', hjs'⟩ := h'
    obtain ⟨rfl, rfl⟩ := List.cons.inj heq
    rw [Holds.unique j j' i hj hj', HoldsItems.unique js js' is hjs hjs']

theorem HoldsFields.unique : ∀ (fs fs' : List (String × Json)) (es : List (Nat × Nat)),
    HoldsFields d fs es → HoldsFields d fs' es → fs = fs'
  | [], [], es, h, h' => rfl
  | [], f' :: fs', es, h, h' => by
    obtain ⟨k, i, es', rfl, -⟩ := h'
    cases h
  | f :: fs, [], es, h, h' => by
    obtain ⟨k, i, es', rfl, -⟩ := h
    cases h'
  | (name, j) :: fs, (name', j') :: fs', es, h, h' => by
    obtain ⟨k, i, es, rfl, hk, hj, hfs⟩ := h
    obtain ⟨_, _, _, heq, hk', hj', hfs'⟩ := h'
    obtain ⟨hki, rfl⟩ := List.cons.inj heq
    obtain ⟨rfl, rfl⟩ := Prod.mk.inj hki
    have hname : Text.ofString name = Text.ofString name' :=
      Scalar.text.inj (Cell.scalar.inj (hk.symm.trans hk'))
    rw [Text.ofString_injective hname, Holds.unique j j' i hj hj',
      HoldsFields.unique fs fs' es hfs hfs']

end

end Document

/-- A text is one document, which shows a value. -/
def Shows (text : String) (j : Json) : Prop :=
  ∃ d, Document.ofChars text.toList = .ok (some d) ∧ d.Holds j d.root

theorem Shows.unique {text : String} {j j' : Json} (h : Shows text j) (h' : Shows text j') :
    j = j' := by
  obtain ⟨d, hd, hj⟩ := h
  obtain ⟨d', hd', hj'⟩ := h'
  obtain rfl := Option.some.inj (Except.ok.inj (hd.symm.trans hd'))
  exact Document.Holds.unique j j' d.root hj hj'

end AuthMap.Yaml
