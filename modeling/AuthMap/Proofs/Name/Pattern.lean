import AuthMap.Config
import Mathlib.Computability.Language

/-! Patterns of names: how each is written, and the language of the texts that it matches. The check
of a name decides the language of its pattern. -/

namespace AuthMap

open scoped Computability

/-! ### Ends and inside -/

/-- A small letter or a digit. -/
def IsAlphanumeric (c : Char) : Prop := 'a' ≤ c ∧ c ≤ 'z' ∨ '0' ≤ c ∧ c ≤ '9'

instance (c : Char) : Decidable (IsAlphanumeric c) := inferInstanceAs (Decidable (_ ∨ _))

/-- There is a first character and a last one, both are letters or digits, and the others are so too
or are marks. -/
structure Enclosed (Mark : Char → Prop) (cs : List Char) : Prop where
  head : ∃ c ∈ cs.head?, IsAlphanumeric c
  last : ∃ c ∈ cs.getLast?, IsAlphanumeric c
  all : ∀ c ∈ cs, IsAlphanumeric c ∨ Mark c

theorem Enclosed.ne_nil {Mark : Char → Prop} {cs : List Char} (h : Enclosed Mark cs) : cs ≠ [] := by
  rintro rfl
  obtain ⟨c, hc, -⟩ := h.head
  cases hc

theorem Config.isEdge_iff {c : Char} : isEdge c ↔ IsAlphanumeric c := by
  have hbetween (a z : Char) : (decide (a.val ≤ c.val) && decide (c.val ≤ z.val)) = true ↔
      a ≤ c ∧ c ≤ z := by
    rw [Bool.and_eq_true, decide_eq_true_iff, decide_eq_true_iff]
    rfl
  have hlower : c.isLower ↔ 'a' ≤ c ∧ c ≤ 'z' := hbetween 'a' 'z'
  have hdigit : c.isDigit ↔ '0' ≤ c ∧ c ≤ '9' := hbetween '0' '9'
  rw [isEdge, Bool.or_eq_true, hlower, hdigit, IsAlphanumeric]

theorem Config.isName_iff {isInner : Char → Bool} {cs : List Char} :
    isName isInner cs ↔ Enclosed (isInner ·) cs := by
  simp only [isName, Bool.and_eq_true, Option.any_eq_true, List.all_eq_true, Bool.or_eq_true,
    isEdge_iff]
  exact ⟨fun ⟨⟨hhead, hlast⟩, hall⟩ => ⟨hhead, hlast, hall⟩,
    fun h => ⟨⟨h.head, h.last⟩, h.all⟩⟩

/-! ### Patterns -/

inductive Pattern where
  /-- One character within some ranges; a range of one is written as that character. -/
  | oneOf (ranges : List (Char × Char))
  | seq (p q : Pattern)
  | star (p : Pattern)
  | optional (p : Pattern)

namespace Pattern

def rangeText (r : Char × Char) : String :=
  if r.1 = r.2 then .ofList [r.1] else .ofList [r.1, '-', r.2]

def text : Pattern → String
  | .oneOf ranges => "[" ++ String.join (ranges.map rangeText) ++ "]"
  | .seq p q => p.text ++ q.text
  | .star p => p.text ++ "*"
  | .optional p => "(" ++ p.text ++ ")?"

/-- The texts of one character. -/
def single (P : Char → Prop) : Language Char := {cs | ∃ c, cs = [c] ∧ P c}

def language : Pattern → Language Char
  | .oneOf ranges => single fun c => ∃ r ∈ ranges, r.1 ≤ c ∧ c ≤ r.2
  | .seq p q => p.language * q.language
  | .star p => p.language∗
  | .optional p => 1 + p.language

/-- Alternatives, each of which is to take up the whole of a text. -/
def wholeText (ps : List Pattern) : String :=
  "|".intercalate (ps.map fun p => "^" ++ p.text ++ "$")

def whole (ps : List Pattern) : Language Char := (ps.map language).sum

def edge : Pattern := .oneOf [('a', 'z'), ('0', '9')]

def edged (ranges : List (Char × Char)) : Pattern :=
  .seq edge (.optional (.seq (.star (.oneOf ranges)) edge))

def objectName : List Pattern := [edged [('-', '-'), ('a', 'z'), ('0', '9'), ('.', '.')]]

def label : List Pattern :=
  [.seq edge (.seq (.star (.oneOf [('a', 'z'), ('0', '9'), ('-', '-')])) edge), edge]

theorem wholeText_objectName : wholeText objectName = Config.objectNamePattern := by
  decide +kernel

theorem wholeText_label : wholeText label = Config.namespacePattern := by
  decide +kernel

/-! ### Languages -/

section Language

variable {P : Char → Prop} {cs : List Char}

theorem mem_ranges_edge {c : Char} :
    (∃ r ∈ [('a', 'z'), ('0', '9')], r.1 ≤ c ∧ c ≤ r.2) ↔ IsAlphanumeric c := by
  simp [IsAlphanumeric]

theorem mem_single_kstar : cs ∈ (single P)∗ ↔ ∀ c ∈ cs, P c := by
  constructor
  · intro h
    obtain ⟨parts, rfl, hparts⟩ := Language.mem_kstar.mp h
    intro c hc
    obtain ⟨part, hpart, hc⟩ := List.mem_flatten.mp hc
    obtain ⟨d, rfl, hd⟩ := hparts part hpart
    rwa [List.mem_singleton.mp hc]
  · intro h
    refine Language.mem_kstar.mpr ⟨cs.map fun c => [c], ?_, ?_⟩
    · rw [← List.flatMap_def, List.flatMap_singleton']
    · intro part hpart
      obtain ⟨c, hc, rfl⟩ := List.mem_map.mp hpart
      exact ⟨c, rfl, h c hc⟩

/-- A letter or digit alone, or one at each end of a text that may hold marks. -/
theorem mem_language_edged {ranges : List (Char × Char)} {Mark : Char → Prop}
    (hranges : ∀ c, (∃ r ∈ ranges, r.1 ≤ c ∧ c ≤ r.2) ↔ IsAlphanumeric c ∨ Mark c) :
    cs ∈ (edged ranges).language ↔ Enclosed Mark cs := by
  constructor
  · rintro ⟨_, ⟨a, rfl, ha⟩, rest, hrest, rfl⟩
    have ha := mem_ranges_edge.mp ha
    rcases (Language.mem_add _ _ _).mp hrest with hnil | hmul
    · obtain rfl := (Language.mem_one _).mp hnil
      exact ⟨⟨a, rfl, ha⟩, ⟨a, rfl, ha⟩, by simp [ha]⟩
    · obtain ⟨inside, hinside, _, ⟨z, rfl, hz⟩, rfl⟩ := Language.mem_mul.mp hmul
      have hz := mem_ranges_edge.mp hz
      refine ⟨⟨a, rfl, ha⟩, ⟨z, List.getLast?_concat (l := a :: inside), hz⟩, fun c hc => ?_⟩
      simp only [List.singleton_append, List.mem_cons, List.mem_append, List.not_mem_nil,
        or_false] at hc
      rcases hc with rfl | hc | rfl
      · exact Or.inl ha
      · exact (hranges c).mp (mem_single_kstar.mp hinside c hc)
      · exact Or.inl hz
  · rintro ⟨⟨a, hhead, ha⟩, ⟨z, hlast, hz⟩, hall⟩
    obtain ⟨rest, rfl⟩ := List.head?_eq_some_iff.mp hhead
    refine Language.mem_mul.mpr ⟨[a], ⟨a, rfl, mem_ranges_edge.mpr ha⟩, rest, ?_, rfl⟩
    rcases List.eq_nil_or_concat rest with rfl | ⟨inside, z', rfl⟩
    · exact Or.inl rfl
    · rw [List.concat_eq_append] at hlast hall ⊢
      obtain rfl : z' = z :=
        Option.some.inj ((List.getLast?_concat (l := a :: inside)).symm.trans hlast)
      have hinside : inside ∈ (single _)∗ := mem_single_kstar.mpr fun c hc =>
        (hranges c).mpr (hall c (List.mem_cons_of_mem a (List.mem_append_left _ hc)))
      exact Or.inr (Language.append_mem_mul hinside ⟨z', rfl, mem_ranges_edge.mpr hz⟩)

theorem mem_whole_objectName :
    cs ∈ whole objectName ↔ Enclosed (fun c => c = '-' ∨ c = '.') cs := by
  have hwhole : whole objectName = (edged _).language := add_zero _
  rw [hwhole]
  refine mem_language_edged fun c => ?_
  simp only [List.exists_mem_cons_iff, Std.le_antisymm_iff, List.not_mem_nil, false_and,
    exists_false, or_false, IsAlphanumeric]
  tauto

theorem mem_whole_label : cs ∈ whole label ↔ Enclosed (· = '-') cs := by
  -- the alternative of one character is the one that leaves the rest out
  have hwhole : whole label = (edged [('a', 'z'), ('0', '9'), ('-', '-')]).language :=
    calc whole label
      _ = edge.language * (_ * edge.language) + (edge.language + 0) := rfl
      _ = edge.language * (1 + _ * edge.language) := by
        rw [add_zero, mul_add, mul_one, add_comm]
  rw [hwhole]
  refine mem_language_edged fun c => ?_
  simp only [List.exists_mem_cons_iff, Std.le_antisymm_iff, List.not_mem_nil, false_and,
    exists_false, or_false, IsAlphanumeric]
  tauto

end Language

end Pattern

namespace Config

variable {cs : List Char}

theorem isObjectName_iff : isObjectName cs ↔ cs ∈ Pattern.whole Pattern.objectName := by
  rw [Pattern.mem_whole_objectName, isObjectName, isName_iff]
  simp only [Bool.or_eq_true, decide_eq_true_eq]

theorem isNamespace_iff : isNamespace cs ↔ cs ∈ Pattern.whole Pattern.label := by
  rw [Pattern.mem_whole_label, isNamespace, isName_iff]
  simp only [decide_eq_true_eq]

end Config

end AuthMap
