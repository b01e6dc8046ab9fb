import AuthMap.Proofs.Session
import AuthMap.Path

/-! Paths are read back from their text, and once a home directory has been put in the place of a
tilde there is no further tilde to replace. -/

namespace AuthMap

/-! ### Parts -/

namespace Text

variable {α : Type} [DecidableEq α] {sep : α} {xs ys : List α}

theorem splitOn_of_notMem (h : sep ∉ xs) : splitOn sep xs = [xs] := by
  induction xs with
  | nil => rfl
  | cons c cs ih =>
    rw [List.mem_cons, not_or] at h
    rw [splitOn, if_neg (Ne.symm h.1), ih h.2]

theorem splitOn_append (h : sep ∉ xs) (ys : List α) :
    splitOn sep (xs ++ sep :: ys) = xs :: splitOn sep ys := by
  induction xs with
  | nil => rw [List.nil_append, splitOn, if_pos rfl]
  | cons c cs ih =>
    rw [List.mem_cons, not_or] at h
    rw [List.cons_append, splitOn, if_neg (Ne.symm h.1), ih h.2]

theorem notMem_of_mem_splitOn {part : List α} (h : part ∈ splitOn sep xs) : sep ∉ part := by
  induction xs generalizing part with
  | nil =>
    obtain rfl : part = [] := by simpa [splitOn] using h
    exact List.not_mem_nil
  | cons c cs ih =>
    unfold splitOn at h
    split at h
    · rcases List.mem_cons.mp h with rfl | h
      · exact List.not_mem_nil
      · exact ih h
    · next hc =>
      split at h
      · next hnil => exact absurd hnil (splitOn_ne_nil sep cs)
      · next first parts hparts =>
        rw [hparts] at ih
        rcases List.mem_cons.mp h with rfl | h
        · rw [List.mem_cons, not_or]
          exact ⟨Ne.symm hc, ih List.mem_cons_self⟩
        · exact ih (List.mem_cons_of_mem _ h)

/-- What stands in front goes to the first part. -/
theorem exists_splitOn_cons (sep : α) (xs : List α) :
    ∃ first rest, splitOn sep xs = first :: rest ∧
      ∀ ys, sep ∉ ys → splitOn sep (ys ++ xs) = (ys ++ first) :: rest := by
  obtain ⟨first, rest, hxs⟩ := List.exists_cons_of_ne_nil (splitOn_ne_nil sep xs)
  refine ⟨first, rest, hxs, fun ys hys => ?_⟩
  induction ys with
  | nil => exact hxs
  | cons y ys ih =>
    rw [List.mem_cons, not_or] at hys
    rw [List.cons_append, splitOn, if_neg (Ne.symm hys.1), ih hys.2]
    rfl

/-- What stands behind goes to the last part. -/
theorem exists_splitOn_concat (sep : α) (xs : List α) :
    ∃ init last, splitOn sep xs = init ++ [last] ∧
      ∀ ys, sep ∉ ys → splitOn sep (xs ++ ys) = init ++ [last ++ ys] := by
  induction xs with
  | nil => exact ⟨[], [], rfl, fun ys hys => splitOn_of_notMem hys⟩
  | cons x xs ih =>
    obtain ⟨init, last, hxs, hbehind⟩ := ih
    by_cases hx : x = sep
    · refine ⟨[] :: init, last, ?_, fun ys hys => ?_⟩
      · rw [splitOn, if_pos hx, hxs, List.cons_append]
      · rw [List.cons_append, splitOn, if_pos hx, hbehind ys hys, List.cons_append]
    · cases init with
      | nil =>
        refine ⟨[], x :: last, ?_, fun ys hys => ?_⟩
        · rw [splitOn, if_neg hx, hxs]
          rfl
        · rw [List.cons_append, splitOn, if_neg hx, hbehind ys hys]
          rfl
      | cons first init =>
        refine ⟨(x :: first) :: init, last, ?_, fun ys hys => ?_⟩
        · rw [splitOn, if_neg hx, hxs]
          rfl
        · rw [List.cons_append, splitOn, if_neg hx, hbehind ys hys]
          rfl

theorem splitOn_intercalate {part : List α} {parts : List (List α)}
    (h : ∀ p ∈ part :: parts, sep ∉ p) :
    splitOn sep ([sep].intercalate (part :: parts)) = part :: parts := by
  induction parts generalizing part with
  | nil =>
    rw [List.intercalate_singleton]
    exact splitOn_of_notMem (h part List.mem_cons_self)
  | cons part' parts ih =>
    rw [List.intercalate_cons_cons, List.append_assoc, List.singleton_append,
      splitOn_append (h part List.mem_cons_self),
      ih fun p hp => h p (List.mem_cons_of_mem _ hp)]

end Text

/-! ### Paths in normal form -/

namespace Path

structure Normal (p : Path) : Prop where
  root : p.root = [] ∨ p.root = [slash] ∨ p.root = [slash, slash]
  parts : ∀ part ∈ p.parts, part ≠ [] ∧ part ≠ [.char '.'] ∧ slash ∉ part

theorem rootOf_cases (t : Text) :
    rootOf t = [] ∨ rootOf t = [slash] ∨ rootOf t = [slash, slash] := by
  unfold rootOf
  split
  · exact Or.inr (Or.inl rfl)
  · exact Or.inr (Or.inr rfl)
  · exact Or.inr (Or.inl rfl)
  · exact Or.inl rfl

theorem rootOf_cons_ne_nil (t : Text) : rootOf (slash :: t) ≠ [] := by
  unfold rootOf
  split
  · exact List.cons_ne_nil _ _
  · exact List.cons_ne_nil _ _
  · exact List.cons_ne_nil _ _
  · next hnone => exact absurd rfl (hnone t)

theorem normal_ofText (t : Text) : (ofText t).Normal where
  root := rootOf_cases t
  parts part h := by
    obtain ⟨hmem, hpart⟩ := List.mem_filter.mp h
    simp only [ne_eq, Bool.and_eq_true, decide_eq_true_eq] at hpart
    exact ⟨hpart.1, hpart.2, Text.notMem_of_mem_splitOn hmem⟩

namespace Normal

variable {p : Path} {q : Text.CodePoint}

theorem rootOf_append (h : p.Normal) (hq : q ≠ slash) (t : Text) :
    rootOf (p.root ++ q :: t) = p.root := by
  rcases h.root with hroot | hroot | hroot
  all_goals
    rw [hroot]
    simp [rootOf, hq]

/-- The slashes of the root give empty parts, which do not count. -/
theorem filter_splitOn_root (h : p.Normal) (t : Text) :
    (Text.splitOn slash (p.root ++ t)).filter (fun part => part ≠ [] && part ≠ [.char '.']) =
      (Text.splitOn slash t).filter fun part => part ≠ [] && part ≠ [.char '.'] := by
  rcases h.root with hroot | hroot | hroot
  all_goals
    rw [hroot]
    simp [Text.splitOn]

theorem filter_parts (h : p.Normal) :
    p.parts.filter (fun part => part ≠ [] && part ≠ [.char '.']) = p.parts := by
  refine List.filter_eq_self.mpr fun part hpart => ?_
  obtain ⟨hnil, hdot, -⟩ := h.parts part hpart
  simp [hnil, hdot]

theorem ofText_append (h : p.Normal) :
    ofText (p.root ++ [slash].intercalate p.parts) = p := by
  cases hparts : p.parts with
  | nil =>
    obtain ⟨root, parts⟩ := p
    obtain rfl : parts = [] := hparts
    rcases h.root with hroot | hroot | hroot
    all_goals
      obtain rfl : root = _ := hroot
      decide
  | cons part parts =>
    rw [← hparts]
    obtain ⟨q, t, rfl⟩ :=
      List.exists_cons_of_ne_nil (h.parts part (hparts ▸ List.mem_cons_self)).1
    have hq : q ≠ slash := fun hq =>
      (h.parts (q :: t) (hparts ▸ List.mem_cons_self)).2.2 (by simp [hq])
    obtain ⟨u, hu⟩ : ∃ u, [slash].intercalate p.parts = q :: u := by
      rw [hparts]
      cases parts with
      | nil => exact ⟨t, List.intercalate_singleton⟩
      | cons part parts => exact ⟨_, List.intercalate_cons_cons⟩
    have hsplit : Text.splitOn slash ([slash].intercalate p.parts) = p.parts := by
      rw [hparts]
      exact Text.splitOn_intercalate fun part hpart => (h.parts part (hparts ▸ hpart)).2.2
    have hroot := h.rootOf_append hq u
    rw [← hu] at hroot
    rw [ofText, hroot, h.filter_splitOn_root, hsplit, h.filter_parts]

theorem ofText_toText (h : p.Normal) : ofText p.toText = p := by
  have happend := h.ofText_append
  unfold toText
  split
  · next hnil =>
    rw [hnil] at happend
    rw [← happend]
    rfl
  · exact happend

end Normal

end Path

/-! ### Homes -/

namespace Path

/-- Whatever is put behind the path, no tilde stands in front. -/
def Anchored (p : Path) : Prop :=
  p.root ≠ [] ∨ ∃ part parts, p.parts = part :: parts ∧ part.head? ≠ some (.char '~')

theorem Anchored.expand_append {p : Path} (h : p.Anchored) (hs : Homes) (parts : List Text) :
    (Path.mk p.root (p.parts ++ parts)).expand hs = .ok ⟨p.root, p.parts ++ parts⟩ := by
  unfold expand
  split
  · next user rest hroot hparts =>
    rcases h with h | ⟨part, others, hp, hpart⟩
    · exact absurd hroot h
    · rw [hp, List.cons_append] at hparts
      rw [(List.cons.inj hparts).1] at hpart
      exact absurd rfl hpart
  · rfl

end Path

/-- No home directory that is found has a tilde in front, as none has that is given from the root
on. -/
def Homes.Anchored (hs : Homes) : Prop :=
  ∀ user home, hs.lookup user = .ok home → (Path.ofText home).Anchored

namespace Homes

variable {hs : Homes} {user home : Text}

theorem exists_entry_of_lookup (h : hs.lookup user = .ok home) :
    ∃ entry, hs.entry user = .ok entry ∧ home = directory entry := by
  obtain ⟨entry, hentry, hhome⟩ := Except.bind_eq_ok.mp h
  refine ⟨entry, hentry, ?_⟩
  dsimp only at hhome
  split at hhome
  · cases hhome
  · exact (Except.ok.inj hhome).symm

theorem entry_cases (h : hs.entry user = .ok home) :
    user = [] ∧ home = hs.own ∨ (user, home) ∈ hs.others := by
  unfold entry at h
  split at h
  · next hempty => exact Or.inl ⟨List.isEmpty_iff.mp hempty, (Except.ok.inj h).symm⟩
  · split at h
    · cases h
    · split at h
      · cases h
      · split at h
        · next name home' hfind =>
          have hname : name = user := by simpa using List.find?_some hfind
          rw [← hname, ← Except.ok.inj h]
          exact Or.inr (List.mem_of_find?_eq_some hfind)
        · cases h

theorem head?_directory (h : home.head? = some Path.slash) :
    (directory home).head? = some Path.slash := by
  have hfront : (home.reverse.dropWhile (· = Path.slash)).reverse <+: home := by
    have hsuffix := List.dropWhile_suffix (l := home.reverse) (· = Path.slash)
    rwa [← List.reverse_prefix, List.reverse_reverse] at hsuffix
  unfold directory
  split
  · rfl
  · next hne =>
    obtain ⟨p, t, hkept⟩ := List.exists_cons_of_ne_nil hne
    obtain ⟨rest, hhome⟩ := hfront
    rw [hkept] at hhome ⊢
    rw [← hhome] at h
    exact h

theorem anchored_of_rooted (hown : hs.own.head? = some Path.slash)
    (hothers : ∀ h ∈ hs.others, h.2.head? = some Path.slash) : hs.Anchored := by
  intro user home hhome
  obtain ⟨entry, hentry, rfl⟩ := exists_entry_of_lookup hhome
  have hrooted : entry.head? = some Path.slash := by
    rcases entry_cases hentry with ⟨-, rfl⟩ | hmem
    · exact hown
    · exact hothers _ hmem
  obtain ⟨t, ht⟩ := List.head?_eq_some_iff.mp (head?_directory hrooted)
  rw [ht]
  exact Or.inl (Path.rootOf_cons_ne_nil t)

end Homes

namespace Path

theorem Normal.expand {hs : Homes} {p q : Path} (hp : p.Normal) (h : p.expand hs = .ok q) :
    q.Normal := by
  unfold Path.expand at h
  split at h
  · next user parts hroot hparts =>
    obtain ⟨home, -, hq⟩ := Except.bind_eq_ok.mp h
    obtain rfl := Except.ok.inj hq
    have hnormal := normal_ofText home
    refine ⟨hnormal.root, fun part hpart => ?_⟩
    rcases List.mem_append.mp hpart with hpart | hpart
    · exact hnormal.parts part hpart
    · exact hp.parts part (hparts ▸ List.mem_cons_of_mem _ hpart)
  · obtain rfl := Except.ok.inj h
    exact hp

/-- A tilde is replaced once: what has been put in its place has none. -/
theorem expand_expand {hs : Homes} (hhomes : hs.Anchored) {p q : Path} (hp : p.Normal)
    (h : p.expand hs = .ok q) : q.Normal ∧ q.expand hs = .ok q := by
  refine ⟨hp.expand h, ?_⟩
  have hsame := h
  unfold expand at h
  split at h
  · next user parts hroot hparts =>
    obtain ⟨home, hhome, hq⟩ := Except.bind_eq_ok.mp h
    obtain rfl := Except.ok.inj hq
    exact (hhomes user home hhome).expand_append hs parts
  · obtain rfl := Except.ok.inj h
    exact hsame

/-- What stands behind the first part does not count for it. -/
theorem expand_cons (hs : Homes) (root part : Text) (parts : List Text) :
    (Path.mk root (part :: parts)).expand hs =
      ((Path.mk root [part]).expand hs).map fun p => ⟨p.root, p.parts ++ parts⟩ := by
  unfold expand
  split
  · next user rest hroot hparts =>
    obtain ⟨rfl, rfl⟩ := List.cons.inj hparts
    obtain rfl : root = [] := hroot
    cases hlookup : hs.lookup user with
    | error e => simp only [hlookup]; rfl
    | ok home =>
      simp only [hlookup, Except.bind_ok, List.append_nil]
      rfl
  · next hparts =>
    split
    · next user rest hroot hpart =>
      obtain ⟨rfl, -⟩ := List.cons.inj hpart
      exact absurd rfl (hparts user parts hroot)
    · rfl

end Path

end AuthMap
