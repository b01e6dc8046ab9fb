import AuthMap.Proofs.Name.Pattern
import Mathlib.Data.List.Chain

/-! Names of domains: labels, and several of them with dots between. They are the names of objects
whose dots all stand between letters or digits. -/

namespace AuthMap

/-! ### Domains -/

namespace Domain

variable {p cs : List Char}

/-- A part of a name between dots. -/
def IsPart : List Char → Prop := Enclosed (· = '-')

structure IsLabel (cs : List Char) : Prop where
  isPart : IsPart cs
  length_le : cs.length ≤ 63

/-- One part or more, and a single dot between each and the next. -/
def IsDotted (cs : List Char) : Prop :=
  ∃ ps : List (List Char), ps ≠ [] ∧ (∀ p ∈ ps, IsPart p) ∧ cs = ['.'].intercalate ps

structure IsSubdomain (cs : List Char) : Prop where
  isDotted : IsDotted cs
  length_le : cs.length ≤ 253

/-- A text that matches the pattern for names of objects and is not too long for one. -/
def IsObjectName (cs : List Char) : Prop :=
  cs.length ≤ 253 ∧ cs ∈ Pattern.whole Pattern.objectName

theorem isLabel_iff : IsLabel cs ↔ cs.length ≤ 63 ∧ cs ∈ Pattern.whole Pattern.label := by
  rw [Pattern.mem_whole_label]
  exact ⟨fun h => ⟨h.length_le, h.isPart⟩, fun h => ⟨h.2, h.1⟩⟩

theorem isDotted_of_isPart (hp : IsPart p) : IsDotted p :=
  ⟨[p], List.cons_ne_nil _ _, by simpa using hp, (List.intercalate_singleton ..).symm⟩

theorem IsDotted.cons (hp : IsPart p) (h : IsDotted cs) : IsDotted (p ++ '.' :: cs) := by
  obtain ⟨ps, hne, hps, rfl⟩ := h
  obtain ⟨q, ps, rfl⟩ := List.exists_cons_of_ne_nil hne
  refine ⟨p :: q :: ps, List.cons_ne_nil _ _, List.forall_mem_cons.mpr ⟨hp, hps⟩, ?_⟩
  rw [List.intercalate_cons_cons, List.append_assoc, List.singleton_append]

/-! ### Dots -/

/-- A character of an object's name that is no letter and no digit. -/
def IsMark (c : Char) : Prop := c = '-' ∨ c = '.'

/-- Beside a dot stands a letter or a digit. -/
def Beside (a b : Char) : Prop := (a = '.' → IsAlphanumeric b) ∧ (b = '.' → IsAlphanumeric a)

/-- The name of an object whose dots stand between letters or digits. -/
structure IsSpaced (cs : List Char) : Prop where
  enclosed : Enclosed IsMark cs
  isChain : cs.IsChain Beside

theorem IsMark.not_isAlphanumeric {c : Char} (h : IsMark c) : ¬ IsAlphanumeric c := by
  rcases h with rfl | rfl
  · decide
  · decide

theorem not_isAlphanumeric_dot : ¬ IsAlphanumeric '.' := IsMark.not_isAlphanumeric (Or.inr rfl)

theorem IsPart.notMem_dot (hp : IsPart p) : '.' ∉ p := fun hmem =>
  (hp.all '.' hmem).elim not_isAlphanumeric_dot (by decide)

theorem beside_dot_iff {a : Char} : Beside a '.' ↔ IsAlphanumeric a :=
  ⟨fun h => h.2 rfl, fun h => ⟨fun ha => absurd (ha ▸ h) not_isAlphanumeric_dot, fun _ => h⟩⟩

theorem dot_beside_iff {b : Char} : Beside '.' b ↔ IsAlphanumeric b :=
  ⟨fun h => h.1 rfl, fun h => ⟨fun _ => h, fun hb => absurd (hb ▸ h) not_isAlphanumeric_dot⟩⟩

theorem exists_head?_dot_iff :
    (∃ c ∈ (p ++ '.' :: cs).head?, IsAlphanumeric c) ↔ ∃ c ∈ p.head?, IsAlphanumeric c := by
  cases p <;> simp [not_isAlphanumeric_dot]

theorem exists_getLast?_dot_iff :
    (∃ c ∈ (p ++ '.' :: cs).getLast?, IsAlphanumeric c) ↔ ∃ c ∈ cs.getLast?, IsAlphanumeric c := by
  rw [List.getLast?_append_cons, List.getLast?_cons]
  cases cs.getLast? <;> simp [not_isAlphanumeric_dot]

theorem isChain_dot_iff : (p ++ '.' :: cs).IsChain Beside ↔
    (p.IsChain Beside ∧ ∀ c ∈ p.getLast?, IsAlphanumeric c) ∧
      (∀ c ∈ cs.head?, IsAlphanumeric c) ∧ cs.IsChain Beside := by
  simp only [List.isChain_append, List.isChain_cons, List.head?_cons, Option.mem_some_iff,
    forall_eq', beside_dot_iff, dot_beside_iff]
  tauto

/-- At a dot, such a name falls into two. -/
theorem isSpaced_dot_iff : IsSpaced (p ++ '.' :: cs) ↔ IsSpaced p ∧ IsSpaced cs := by
  constructor
  · rintro ⟨⟨hhead, hlast, hall⟩, hchain⟩
    rw [exists_head?_dot_iff] at hhead
    rw [exists_getLast?_dot_iff] at hlast
    rw [List.forall_mem_append, List.forall_mem_cons] at hall
    obtain ⟨⟨hpchain, hend⟩, hstart, hcschain⟩ := isChain_dot_iff.mp hchain
    have hplast : ∃ c ∈ p.getLast?, IsAlphanumeric c := by
      obtain ⟨c, hc, -⟩ := hhead
      obtain ⟨p, rfl⟩ := List.head?_eq_some_iff.mp hc
      exact ⟨_, List.getLast?_cons, hend _ List.getLast?_cons⟩
    have hcshead : ∃ c ∈ cs.head?, IsAlphanumeric c := by
      cases cs with
      | nil => simp at hlast
      | cons c cs => exact ⟨c, rfl, hstart c rfl⟩
    exact ⟨⟨⟨hhead, hplast, hall.1⟩, hpchain⟩, ⟨hcshead, hlast, hall.2.2⟩, hcschain⟩
  · rintro ⟨⟨hp, hpchain⟩, hcs, hcschain⟩
    have hends {o : Option Char} (h : ∃ c ∈ o, IsAlphanumeric c) : ∀ c ∈ o, IsAlphanumeric c := by
      obtain ⟨d, hd, halnum⟩ := h
      intro c hc
      rwa [Option.mem_unique hc hd]
    refine ⟨⟨exists_head?_dot_iff.mpr hp.head, exists_getLast?_dot_iff.mpr hcs.last, ?_⟩, ?_⟩
    · rw [List.forall_mem_append, List.forall_mem_cons]
      exact ⟨hp.all, Or.inr (Or.inr rfl), hcs.all⟩
    · exact isChain_dot_iff.mpr ⟨⟨hpchain, hends hp.last⟩, hends hcs.head, hcschain⟩

theorem isSpaced_iff_of_notMem (h : '.' ∉ p) : IsSpaced p ↔ IsPart p := by
  constructor
  · rintro ⟨⟨hhead, hlast, hall⟩, -⟩
    refine ⟨hhead, hlast, fun c hc => (hall c hc).imp_right fun hmark => ?_⟩
    exact hmark.resolve_right fun hdot => h (hdot ▸ hc)
  · intro hp
    refine ⟨⟨hp.head, hp.last, fun c hc => (hp.all c hc).imp_right Or.inl⟩, ?_⟩
    rw [List.isChain_iff_forall_rel_of_append_cons_cons]
    rintro a b l₁ l₂ rfl
    constructor
    · rintro rfl
      simp at h
    · rintro rfl
      simp at h

theorem isDotted_iff : IsDotted cs ↔ IsSpaced cs := by
  constructor
  · rintro ⟨ps, hne, hps, rfl⟩
    have hspaced : ∀ p ∈ ps, IsSpaced p := fun p hp =>
      (isSpaced_iff_of_notMem (hps p hp).notMem_dot).mpr (hps p hp)
    clear hps
    induction ps with
    | nil => exact absurd rfl hne
    | cons p ps ih =>
      rw [List.forall_mem_cons] at hspaced
      cases ps with
      | nil =>
        rw [List.intercalate_singleton]
        exact hspaced.1
      | cons q ps =>
        rw [List.intercalate_cons_cons, List.append_assoc, List.singleton_append]
        exact isSpaced_dot_iff.mpr ⟨hspaced.1, ih (List.cons_ne_nil _ _) hspaced.2⟩
  · -- what stands in front of the first dot is a part
    intro h
    induction hn : cs.length using Nat.strong_induction_on generalizing cs with
    | _ n ih =>
      by_cases hdot : '.' ∈ cs
      · obtain ⟨p, rest, rfl, hp⟩ := List.eq_append_cons_of_mem hdot
        obtain ⟨hpart, hrest⟩ := isSpaced_dot_iff.mp h
        refine IsDotted.cons ((isSpaced_iff_of_notMem hp).mp hpart) (ih _ ?_ hrest rfl)
        simp only [← hn, List.length_append, List.length_cons]
        omega
      · exact isDotted_of_isPart ((isSpaced_iff_of_notMem hdot).mp h)

/-- The pairs in which a dot has no letter or digit beside it. -/
def barePairs : List (List Char) := [['.', '.'], ['.', '-'], ['-', '.']]

theorem mem_barePairs_iff {a b : Char} :
    [a, b] ∈ barePairs ↔ a = '.' ∧ IsMark b ∨ IsMark a ∧ b = '.' := by
  simp only [barePairs, IsMark, List.mem_cons, List.cons.injEq, List.not_mem_nil, or_false,
    and_true]
  tauto

theorem beside_iff {a b : Char} (ha : IsAlphanumeric a ∨ IsMark a)
    (hb : IsAlphanumeric b ∨ IsMark b) : Beside a b ↔ [a, b] ∉ barePairs := by
  rw [mem_barePairs_iff]
  constructor
  · rintro ⟨hright, hleft⟩ (⟨hdot, hmark⟩ | ⟨hmark, hdot⟩)
    · exact hmark.not_isAlphanumeric (hright hdot)
    · exact hmark.not_isAlphanumeric (hleft hdot)
  · intro hbare
    exact ⟨fun hdot => hb.resolve_right fun hmark => hbare (Or.inl ⟨hdot, hmark⟩),
      fun hdot => ha.resolve_right fun hmark => hbare (Or.inr ⟨hmark, hdot⟩)⟩

theorem isChain_iff (h : ∀ c ∈ cs, IsAlphanumeric c ∨ IsMark c) :
    cs.IsChain Beside ↔ ∀ pair ∈ barePairs, ¬ pair <:+: cs := by
  rw [List.isChain_iff_forall_rel_of_append_cons_cons]
  constructor
  · rintro hchain pair hpair ⟨before, after, rfl⟩
    obtain ⟨a, b, rfl⟩ : ∃ a b, pair = [a, b] := by
      simp only [barePairs, List.mem_cons, List.not_mem_nil, or_false] at hpair
      rcases hpair with rfl | rfl | rfl
      all_goals exact ⟨_, _, rfl⟩
    have hbeside : Beside a b := @hchain a b before after (by simp)
    exact (beside_iff (h a (by simp)) (h b (by simp))).mp hbeside hpair
  · rintro hpairs a b before after rfl
    refine (beside_iff (h a (by simp)) (h b (by simp))).mpr fun hmem => ?_
    exact hpairs _ hmem ⟨before, after, by simp⟩

/-- The names of domains are the names of objects that hold none of the pairs. -/
theorem isSubdomain_iff :
    IsSubdomain cs ↔ IsObjectName cs ∧ ∀ pair ∈ barePairs, ¬ pair <:+: cs := by
  have hspaced : IsSpaced cs ↔ Enclosed IsMark cs ∧ ∀ pair ∈ barePairs, ¬ pair <:+: cs :=
    ⟨fun h => ⟨h.enclosed, (isChain_iff h.enclosed.all).mp h.isChain⟩,
      fun ⟨h, hpairs⟩ => ⟨h, (isChain_iff h.all).mpr hpairs⟩⟩
  rw [IsObjectName, Pattern.mem_whole_objectName, and_assoc]
  exact ⟨fun h => ⟨h.length_le, hspaced.mp (isDotted_iff.mp h.isDotted)⟩,
    fun h => ⟨isDotted_iff.mpr (hspaced.mpr h.2), h.1⟩⟩

end Domain

end AuthMap
