import Mathlib.Data.List.TakeWhile
import AuthMap.Cli.Report
import AuthMap.Proofs.Redact.Search

/-! What can be printed. A text is written out as a string, so that a half in it ends the run; to
leave control sequences out makes no difference to that, as there is no half in one. -/

namespace AuthMap

namespace Text

open CodePoint (isChar)

/-- There is no half in the text. -/
def IsWhole (t : Text) : Prop := ∃ s : String, t = ofString s

theorem isWhole_iff_forall {t : Text} : t.IsWhole ↔ ∀ p ∈ t, p.isChar := by
  constructor
  · rintro ⟨s, rfl⟩ p hp
    obtain ⟨c, -, rfl⟩ := List.mem_map.mp hp
    rfl
  · intro h
    induction t with
    | nil => exact ⟨"", rfl⟩
    | cons p t ih =>
      obtain ⟨hp, ht⟩ := List.forall_mem_cons.mp h
      obtain ⟨s, rfl⟩ := ih ht
      cases p with
      | half i => cases hp
      | char c => exact ⟨.singleton c ++ s, by simp [ofString, ofChars]⟩

theorem isWhole_ofString (s : String) : (ofString s).IsWhole := ⟨s, rfl⟩

theorem isWhole_append {t u : Text} : (t ++ u).IsWhole ↔ t.IsWhole ∧ u.IsWhole := by
  simp only [isWhole_iff_forall, List.forall_mem_append]

theorem string?_eq_none_iff {t : Text} : t.string? = none ↔ ¬ t.IsWhole := by
  constructor
  · rintro h ⟨s, rfl⟩
    rw [string?_ofString] at h
    cases h
  · intro h
    cases hs : t.string? with
    | none => rfl
    | some s => exact absurd ⟨s, ofString_of_string? hs⟩ h

theorem encodeFaultFrom_eq_none_iff {hasBytes : CodePoint → Bool} {start : Nat} {t : Text} :
    encodeFaultFrom hasBytes start t = none ↔ ∀ p ∈ t, hasBytes p := by
  induction t generalizing start with
  | nil => simp [encodeFaultFrom]
  | cons p t ih =>
    rw [encodeFaultFrom, List.forall_mem_cons]
    split
    · next hp => rw [ih, and_iff_right hp]
    · next hp => exact iff_of_false nofun fun h => hp h.1

/-- A text that cannot be written out has a reason for it, and no other has one. -/
theorem encodeFault?_eq_none_iff {t : Text} : t.encodeFault? = none ↔ t.IsWhole :=
  encodeFaultFrom_eq_none_iff.trans isWhole_iff_forall.symm

/-! ### Control sequences -/

theorem CodePoint.isChar_of_lt {p : CodePoint} (h : p.toNat < 0xD800) : p.isChar := by
  cases p with
  | char c => rfl
  | half i => exact absurd h (Nat.not_lt.mpr (Nat.le_add_right _ _))

theorem isChar_of_isParameter {p : CodePoint} (h : isParameter p) : p.isChar := by
  simp only [isParameter, Bool.and_eq_true, decide_eq_true_eq] at h
  exact CodePoint.isChar_of_lt (by omega)

theorem isChar_of_isIntermediate {p : CodePoint} (h : isIntermediate p) : p.isChar := by
  simp only [isIntermediate, Bool.and_eq_true, decide_eq_true_eq] at h
  exact CodePoint.isChar_of_lt (by omega)

theorem isChar_of_isFinal {p : CodePoint} (h : isFinal p) : p.isChar := by
  simp only [isFinal, Bool.and_eq_true, decide_eq_true_eq] at h
  exact CodePoint.isChar_of_lt (by omega)

/-- A control sequence starts with an escape, and is made of characters. -/
theorem control?_eq_some {t text : Text} {n : Nat} (h : control? t = some (n, text)) :
    text = [] ∧ ∃ xs rest, t = .char '\x1b' :: xs ++ rest ∧ n = xs.length + 1 ∧
      ∀ p ∈ xs, p.isChar := by
  unfold control? at h
  split at h
  · next t =>
    obtain ⟨hlast, h⟩ := Option.ite_none_right_eq_some.mp h
    obtain ⟨rfl, rfl⟩ := Prod.mk.inj (Option.some.inj h)
    obtain ⟨q, rest, hrest⟩ : ∃ q rest,
        (t.dropWhile isParameter).dropWhile isIntermediate = q :: rest :=
      List.exists_cons_of_ne_nil fun hnil => by simp [hnil] at hlast
    have hparameters := List.takeWhile_append_dropWhile (p := isParameter) (l := t)
    have hintermediate :=
      List.takeWhile_append_dropWhile (p := isIntermediate) (l := t.dropWhile isParameter)
    rw [hrest] at hlast hintermediate
    rw [← hintermediate] at hparameters
    refine ⟨rfl, .char '[' :: (t.takeWhile isParameter ++
      ((t.dropWhile isParameter).takeWhile isIntermediate ++ [q])), rest, ?_, ?_, ?_⟩
    · simpa using hparameters.symm
    · have hlength := congrArg List.length hparameters
      rw [hrest]
      simp only [List.length_append, List.length_cons, List.length_nil] at hlength ⊢
      omega
    · simp only [List.forall_mem_cons, List.forall_mem_append]
      exact ⟨rfl, fun p hp => isChar_of_isParameter (List.mem_takeWhile_imp hp),
        fun p hp => isChar_of_isIntermediate (List.mem_takeWhile_imp hp),
        isChar_of_isFinal hlast, nofun⟩
  · cases h

theorem uncontrolled_of_notMem {t : Text} (h : .char '\x1b' ∉ t) : t.uncontrolled = t := by
  refine replaceFrom_eq_self fun u hu _ => ?_
  cases hfound : control? u with
  | none => rfl
  | some found =>
    obtain ⟨-, xs, rest, rfl, -⟩ := control?_eq_some hfound
    exact absurd (hu.subset List.mem_cons_self) h

/-- What is left out has no half in it. -/
theorem isWhole_uncontrolled {t : Text} : t.uncontrolled.IsWhole ↔ t.IsWhole := by
  have hfind (u : Text) (n : Nat) (text : Text) (h : control? u = some (n, text)) :
      0 < n ∧ n ≤ u.length := by
    obtain ⟨-, xs, rest, rfl, rfl, -⟩ := control?_eq_some h
    simp
  induction t using search_induction hfind with
  | nil => rfl
  | pass p t h ih =>
    rw [uncontrolled, replaceFrom_of_none h]
    simp only [isWhole_iff_forall, List.forall_mem_cons] at ih ⊢
    exact and_congr_right' ih
  | found xs rest text hne h ih =>
    obtain ⟨rfl, ys, rest', hxs, hlength, hys⟩ := control?_eq_some h
    obtain ⟨rfl, rfl⟩ := List.append_inj hxs hlength
    have hfront : IsWhole (.char '\x1b' :: ys) :=
      isWhole_iff_forall.mpr (List.forall_mem_cons.mpr ⟨rfl, hys⟩)
    rw [uncontrolled, replaceFrom_append_of_some hne h, List.nil_append, ← uncontrolled,
      isWhole_append, and_iff_right hfront]
    exact ih

end Text

namespace Cli

/-! ### Reports -/

theorem Report.ofText_of_isWhole {t : Text} (h : t.IsWhole) : ∃ s : String,
    t.uncontrolled = Text.ofString s ∧ Report.ofText t = { exitCode := .success, output := s } := by
  obtain ⟨s, hs⟩ := Text.isWhole_uncontrolled.mpr h
  refine ⟨s, hs, ?_⟩
  unfold ofText
  simp only [hs, Text.string?_ofString]

theorem Report.ofText_ofString {s : String} (h : '\x1b' ∉ s.toList) :
    Report.ofText s = { exitCode := .success, output := s } := by
  have hnone : .char '\x1b' ∉ Text.ofString s := by simpa [Text.ofString, Text.ofChars] using h
  unfold ofText
  simp only [Text.uncontrolled_of_notMem hnone, Text.string?_ofString]

theorem Report.ofText_of_not_isWhole {t : Text} (h : ¬ t.IsWhole) :
    Report.ofText t = { exitCode := .general, escaped := some (unwritten t.uncontrolled) } := by
  have hnone := Text.string?_eq_none_iff.mpr (mt Text.isWhole_uncontrolled.mp h)
  unfold ofText
  simp only [hnone]
  rfl

theorem Report.exitCode_ofText_cases (t : Text) :
    (Report.ofText t).exitCode = .success ∨ (Report.ofText t).exitCode = .general := by
  by_cases h : t.IsWhole
  · obtain ⟨s, -, hs⟩ := ofText_of_isWhole h
    exact Or.inl (by rw [hs])
  · exact Or.inr (by rw [ofText_of_not_isWhole h])

theorem Report.exitCode_ofText_eq_success_iff {t : Text} :
    (Report.ofText t).exitCode = .success ↔ t.IsWhole := by
  constructor
  · intro hcode
    by_contra h
    rw [ofText_of_not_isWhole h] at hcode
    cases hcode
  · intro h
    obtain ⟨s, -, hs⟩ := ofText_of_isWhole h
    rw [hs]

end Cli

end AuthMap
