import Mathlib.Data.List.TakeWhile
import AuthMap.Text.Blank

/-! What is taken from the ends of a text when its blanks are left out there. -/

namespace AuthMap.Text

variable {α : Type} {p : α → Bool} {x : α} {xs ys : List α}

theorem forall_of_trimOf (h : trimOf p xs = []) : ∀ x ∈ xs, p x := by
  rw [trimOf, List.reverse_eq_nil_iff, List.dropWhile_eq_nil_iff] at h
  rw [← List.dropWhile_eq_nil_iff]
  by_contra hne
  have hhead := List.head_dropWhile_not p hne
  rw [h _ (List.mem_reverse.mpr (List.head_mem hne))] at hhead
  cases hhead

theorem trimOf_of_forall (h : ∀ x ∈ xs, p x) : trimOf p xs = [] := by
  rw [trimOf, List.dropWhile_eq_nil_iff.mpr h]
  rfl

theorem trimOf_ne_nil (h : p x = false) : trimOf p (x :: xs) ≠ [] := by
  intro hnil
  rw [forall_of_trimOf hnil x List.mem_cons_self] at h
  cases h

theorem trimOf_append_of_forall (h : ∀ y ∈ ys, p y) (xs : List α) :
    trimOf p (ys ++ xs) = trimOf p xs := by
  rw [trimOf, List.dropWhile_append_of_pos h, ← trimOf]

theorem trimOf_append_of_forall_right (xs : List α) (h : ∀ y ∈ ys, p y) :
    trimOf p (xs ++ ys) = trimOf p xs := by
  rw [trimOf, List.dropWhile_append]
  split
  · next hxs =>
    rw [trimOf_of_forall fun x hx => List.dropWhile_eq_nil_iff.mp (List.isEmpty_iff.mp hxs) x hx,
      List.dropWhile_eq_nil_iff.mpr h]
    rfl
  · have hreverse : ∀ y ∈ ys.reverse, p y := fun y hy => h y (List.mem_reverse.mp hy)
    rw [List.reverse_append, List.dropWhile_append_of_pos hreverse, ← trimOf]

theorem dropWhile_eq_trimOf_append (p : α → Bool) (xs : List α) :
    ∃ ys, (∀ y ∈ ys, p y) ∧ xs.dropWhile p = trimOf p xs ++ ys := by
  have hsplit := List.takeWhile_append_dropWhile (p := p) (l := (xs.dropWhile p).reverse)
  refine ⟨((xs.dropWhile p).reverse.takeWhile p).reverse, fun y hy => ?_, ?_⟩
  · exact List.mem_takeWhile_imp (List.mem_reverse.mp hy)
  · rw [trimOf, ← List.reverse_append, hsplit, List.reverse_reverse]

theorem exists_eq_append_trimOf (p : α → Bool) (xs : List α) :
    ∃ lead trail, (∀ x ∈ lead, p x) ∧ (∀ x ∈ trail, p x) ∧
      xs = lead ++ (trimOf p xs ++ trail) := by
  obtain ⟨trail, htrail, hdrop⟩ := dropWhile_eq_trimOf_append p xs
  refine ⟨xs.takeWhile p, trail, fun x hx => List.mem_takeWhile_imp hx, htrail, ?_⟩
  rw [← hdrop, List.takeWhile_append_dropWhile]

/-- A trimmed text does not begin with a blank. -/
theorem eq_false_of_trimOf (h : trimOf p xs = x :: ys) : p x = false := by
  obtain ⟨trail, -, hdrop⟩ := dropWhile_eq_trimOf_append p xs
  rw [h] at hdrop
  have hne : xs.dropWhile p ≠ [] := by simp [hdrop]
  have hhead := List.head_dropWhile_not p hne
  simpa only [hdrop, List.cons_append, List.head_cons] using hhead

/-- Behind a character that is no blank, blanks are left out at the end only. -/
theorem eq_trimOf_append (h : p x = false) :
    ∃ ys, (∀ y ∈ ys, p y) ∧ x :: xs = trimOf p (x :: xs) ++ ys := by
  obtain ⟨trail, htrail, hdrop⟩ := dropWhile_eq_trimOf_append p (x :: xs)
  refine ⟨trail, htrail, ?_⟩
  rw [← hdrop, List.dropWhile_cons_of_neg (by simp [h])]

end AuthMap.Text
