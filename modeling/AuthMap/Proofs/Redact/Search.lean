import Mathlib.Data.List.Infix
import AuthMap.Text.Replace

/-! A search through the first part of a text, with the rest of it in sight. What is found last may
reach into the rest, and the search then goes on behind it. -/

namespace AuthMap.Text

variable {α : Type} {find : List α → Option (Nat × List α)} {rest : List α}

/-- What stands in the place of a text after a search, and how many characters of the rest belong to
what has been found in it. -/
def search (find : List α → Option (Nat × List α)) (rest : List α) :
    Nat → List α → List α × Nat
  | skip, [] => ([], skip)
  | skip + 1, _ :: cs => search find rest skip cs
  | 0, c :: cs =>
    match find (c :: cs ++ rest) with
    | some (length, text) =>
      (text ++ (search find rest (length - 1) cs).1, (search find rest (length - 1) cs).2)
    | none => (c :: (search find rest 0 cs).1, (search find rest 0 cs).2)

section Steps

variable {c : α} {cs text : List α} {length : Nat}

theorem replaceFrom_of_some (h : find (c :: cs) = some (length, text)) :
    replaceFrom find 0 (c :: cs) = text ++ replaceFrom find (length - 1) cs := by
  simp only [replaceFrom, h]

theorem replaceFrom_of_none (h : find (c :: cs) = none) :
    replaceFrom find 0 (c :: cs) = c :: replaceFrom find 0 cs := by
  simp only [replaceFrom, h]

theorem search_of_some (h : find (c :: (cs ++ rest)) = some (length, text)) :
    search find rest 0 (c :: cs) =
      (text ++ (search find rest (length - 1) cs).1, (search find rest (length - 1) cs).2) := by
  simp only [search, List.cons_append, h]

theorem search_cons_of_none (h : find (c :: (cs ++ rest)) = none) :
    search find rest 0 (c :: cs) =
      (c :: (search find rest 0 cs).1, (search find rest 0 cs).2) := by
  simp only [search, List.cons_append, h]

end Steps

theorem replaceFrom_append (skip : Nat) (xs : List α) :
    replaceFrom find skip (xs ++ rest) =
      (search find rest skip xs).1 ++ replaceFrom find (search find rest skip xs).2 rest := by
  fun_induction search find rest skip xs with
  | case1 skip => rfl
  | case2 skip c cs ih => exact ih
  | case3 c cs length text h ih =>
    rw [List.cons_append] at h ⊢
    rw [replaceFrom_of_some h, ih, List.append_assoc]
  | case4 c cs h ih =>
    rw [List.cons_append] at h ⊢
    rw [replaceFrom_of_none h, ih, List.cons_append]

/-- A text is searched part by part. -/
theorem search_append (skip : Nat) (xs ys : List α) :
    search find rest skip (xs ++ ys) =
      ((search find (ys ++ rest) skip xs).1 ++
          (search find rest (search find (ys ++ rest) skip xs).2 ys).1,
        (search find rest (search find (ys ++ rest) skip xs).2 ys).2) := by
  fun_induction search find (ys ++ rest) skip xs with
  | case1 skip => rfl
  | case2 skip c cs ih => exact ih
  | case3 c cs length text h ih =>
    rw [List.cons_append, ← List.append_assoc] at h
    rw [List.cons_append, search_of_some h, ih, List.append_assoc]
  | case4 c cs h ih =>
    rw [List.cons_append, ← List.append_assoc] at h
    rw [List.cons_append, search_cons_of_none h, ih, List.cons_append]

theorem search_append_snd (skip : Nat) (xs ys : List α) :
    (search find rest skip (xs ++ ys)).2 =
      (search find rest (search find (ys ++ rest) skip xs).2 ys).2 := by rw [search_append]

/-- All of a text may belong to what has been found before it. -/
theorem search_of_le {skip : Nat} {xs : List α} (h : xs.length ≤ skip) :
    search find rest skip xs = ([], skip - xs.length) := by
  induction xs generalizing skip with
  | nil => rfl
  | cons c cs ih =>
    cases skip with
    | zero => cases h
    | succ skip =>
      rw [search, ih (Nat.le_of_succ_le_succ h), List.length_cons, Nat.succ_sub_succ]

theorem search_length_append (xs ys : List α) :
    search find rest xs.length (xs ++ ys) = search find rest 0 ys := by
  rw [search_append, search_of_le (Nat.le_refl _), Nat.sub_self]
  rfl

/-- A find that takes the first part of a text, and none of what follows. -/
theorem search_append_of_some {xs ys text : List α} (hxs : xs ≠ [])
    (h : find (xs ++ (ys ++ rest)) = some (xs.length, text)) :
    search find rest 0 (xs ++ ys) =
      (text ++ (search find rest 0 ys).1, (search find rest 0 ys).2) := by
  obtain ⟨c, cs, rfl⟩ := List.exists_cons_of_ne_nil hxs
  rw [List.cons_append, ← List.append_assoc] at h
  rw [List.cons_append, search_of_some h, List.length_cons, Nat.add_sub_cancel,
    search_length_append]

theorem search_of_none {xs : List α}
    (h : ∀ ys, ys <:+ xs → ys ≠ [] → find (ys ++ rest) = none) :
    search find rest 0 xs = (xs, 0) := by
  induction xs with
  | nil => rfl
  | cons c cs ih =>
    rw [search_cons_of_none (h _ List.suffix_rfl (List.cons_ne_nil c cs)),
      ih fun ys hys => h ys (hys.trans (List.suffix_cons c cs))]

theorem replaceFrom_length (xs : List α) :
    replaceFrom find xs.length (xs ++ rest) = replaceFrom find 0 rest := by
  rw [replaceFrom_append, search_of_le (Nat.le_refl _), Nat.sub_self]
  rfl

theorem replaceFrom_eq_self {xs : List α} (h : ∀ ys, ys <:+ xs → ys ≠ [] → find ys = none) :
    replaceFrom find 0 xs = xs := by
  have hsearch : search find [] 0 xs = (xs, 0) := search_of_none fun ys hys hne => by
    rw [List.append_nil]
    exact h ys hys hne
  rw [← List.append_nil xs, replaceFrom_append, hsearch]
  rfl

theorem replaceFrom_append_of_some {xs text : List α} (hxs : xs ≠ [])
    (h : find (xs ++ rest) = some (xs.length, text)) :
    replaceFrom find 0 (xs ++ rest) = text ++ replaceFrom find 0 rest := by
  have hsearch : search find rest 0 (xs ++ []) = (text ++ [], 0) := search_append_of_some hxs h
  rw [List.append_nil, List.append_nil] at hsearch
  rw [replaceFrom_append, hsearch]

/-- A text in the parts that a search takes it in: a character at which nothing is found, or all of
what is found. -/
@[elab_as_elim]
theorem search_induction {motive : List α → Prop}
    (hfind : ∀ cs n text, find cs = some (n, text) → 0 < n ∧ n ≤ cs.length) (nil : motive [])
    (pass : ∀ c cs, find (c :: cs) = none → motive cs → motive (c :: cs))
    (found : ∀ xs rest text, xs ≠ [] → find (xs ++ rest) = some (xs.length, text) → motive rest →
      motive (xs ++ rest)) (cs : List α) : motive cs := by
  induction hn : cs.length using Nat.strongRecOn generalizing cs with
  | _ n ih =>
    subst hn
    cases cs with
    | nil => exact nil
    | cons c cs =>
      cases h : find (c :: cs) with
      | none => exact pass c cs h (ih cs.length (Nat.lt_succ_self _) cs rfl)
      | some hit =>
        obtain ⟨n, text⟩ := hit
        obtain ⟨hpos, hle⟩ := hfind _ _ _ h
        have hsplit := List.take_append_drop n (c :: cs)
        have hlength : ((c :: cs).take n).length = n := List.length_take_of_le hle
        have hne : (c :: cs).take n ≠ [] := List.ne_nil_of_length_pos (by rwa [hlength])
        have hrest := ih ((c :: cs).drop n).length (by rw [List.length_drop]; omega) _ rfl
        have hmotive := found _ ((c :: cs).drop n) text hne (by rw [hsplit, hlength, h]) hrest
        rwa [hsplit] at hmotive

/-- What is found does not depend on the rest, so that none of it lies there. -/
theorem search_of_local (hfind : ∀ ys text n, find ys = some (n, text) → n ≤ ys.length)
    {skip : Nat} {xs : List α} (hrest : ∀ ys, ys <:+ xs → ys ≠ [] → find (ys ++ rest) = find ys)
    (hskip : skip ≤ xs.length) : search find rest skip xs = (replaceFrom find skip xs, 0) := by
  induction xs generalizing skip with
  | nil =>
    obtain rfl : skip = 0 := by simpa using hskip
    rfl
  | cons c cs ih =>
    have htail (ys : List α) (hys : ys <:+ cs) := hrest ys (hys.trans (List.suffix_cons c cs))
    cases skip with
    | succ skip => exact ih htail (Nat.le_of_succ_le_succ hskip)
    | zero =>
      have hsame := hrest _ List.suffix_rfl (List.cons_ne_nil c cs)
      cases h : find (c :: cs) with
      | none =>
        rw [search_cons_of_none (hsame.trans h), replaceFrom_of_none h, ih htail (Nat.zero_le _)]
      | some found =>
        have hlength : found.1 - 1 ≤ cs.length := Nat.sub_le_of_le_add (hfind _ _ _ h)
        rw [search_of_some (hsame.trans h), replaceFrom_of_some h, ih htail hlength]

end AuthMap.Text
