import Mathlib.Data.List.Basic
import Mathlib.Tactic.SplitIfs
import AuthMap.Yaml.Cursor

/-! How a cursor passes printed text: visible characters of one line, blanks, and line feeds. -/

namespace AuthMap.Yaml

/-- Characters that stand for themselves within a printed line, blanks among them. -/
def isGraphic (c : Char) : Bool := 0x20 ≤ c.toNat && c.toNat ≤ 0x7E

def isPrinted (c : Char) : Bool := c = '\n' || isGraphic c

theorem ne_of_isGraphic {c d : Char} (hc : isGraphic c) (hd : isGraphic d = false) : c ≠ d := by
  rintro rfl
  rw [hc] at hd
  exact absurd hd (by decide)

theorem isBreak_eq_false {c : Char} (h : isGraphic c) : isBreak c = false := by
  have hn {d : Char} (hd : isGraphic d = false) : c ≠ d := ne_of_isGraphic h hd
  simp [isBreak, hn (d := '\n') (by decide), hn (d := '\r') (by decide),
    hn (d := '\u0085') (by decide), hn (d := '\u2028') (by decide),
    hn (d := '\u2029') (by decide)]

theorem endsWord_eq_false {c : Char} (h : isGraphic c) (hs : c ≠ ' ') :
    endsWord (some c) = false := by
  have ht : c ≠ '\t' := ne_of_isGraphic h (by decide)
  simp [endsWord, hs, ht, isBreak_eq_false h]

theorem isAllowed_of_isPrinted {c : Char} (h : isPrinted c) : isAllowed c := by
  simp only [isPrinted, isGraphic, Bool.or_eq_true, Bool.and_eq_true, decide_eq_true_eq] at h
  rcases h with rfl | ⟨h₁, h₂⟩
  · decide
  · simp only [isAllowed, Bool.or_eq_true, Bool.and_eq_true, decide_eq_true_eq, beq_iff_eq]
    omega

/-- What a text begins with of one character, and what follows that. -/
theorem exists_front (x : Char) (cs : List Char) :
    ∃ n r, cs = List.replicate n x ++ r ∧ r.head? ≠ some x := by
  induction cs with
  | nil => exact ⟨0, [], rfl, by simp⟩
  | cons c cs ih =>
    by_cases hc : c = x
    · obtain ⟨n, r, rfl, hr⟩ := ih
      exact ⟨n + 1, r, by simp [hc, List.replicate_succ], hr⟩
    · exact ⟨0, c :: cs, rfl, by simpa using hc⟩

namespace Cursor

theorem rest_step (c : Cursor) : c.step.rest = c.rest.tail := by
  unfold step
  split
  · next h => simp [h]
  · next h => split_ifs <;> simp [h]

theorem rest_steps (n : Nat) (c : Cursor) : (c.steps n).rest = c.rest.drop n := by
  induction n generalizing c with
  | zero => rfl
  | succ n ih => rw [steps, ih, rest_step, List.drop_tail]

theorem line_le_step (c : Cursor) : c.line ≤ c.step.line := by
  unfold step
  split
  · exact Nat.le_refl _
  · split_ifs <;> simp

theorem line_le_steps (n : Nat) (c : Cursor) : c.line ≤ (c.steps n).line := by
  induction n generalizing c with
  | zero => exact Nat.le_refl _
  | succ n ih => exact Nat.le_trans (line_le_step c) (ih c.step)

theorem step_newline {c : Cursor} {r : List Char} (h : c.rest = '\n' :: r) :
    c.step = ⟨r, c.index + 1, c.line + 1, 0⟩ := by
  simp [step, h, isBreak]

theorem step_graphic {c : Cursor} {ch : Char} {r : List Char} (h : c.rest = ch :: r)
    (hg : isGraphic ch) : c.step = ⟨r, c.index + 1, c.line, c.column + 1⟩ := by
  have hm : ch ≠ byteOrderMark := ne_of_isGraphic hg (by decide)
  simp [step, h, isBreak_eq_false hg, hm]

theorem steps_graphic {c : Cursor} {cs r : List Char} (h : c.rest = cs ++ r)
    (hg : ∀ ch ∈ cs, isGraphic ch) :
    c.steps cs.length = ⟨r, c.index + cs.length, c.line, c.column + cs.length⟩ := by
  induction cs generalizing c with
  | nil =>
    rw [List.nil_append] at h
    subst h
    rfl
  | cons ch cs ih =>
    have hc := step_graphic h (hg ch List.mem_cons_self)
    have hr : c.step.rest = cs ++ r := congrArg Cursor.rest hc
    rw [List.length_cons, steps, ih hr fun x hx => hg x (List.mem_cons_of_mem _ hx), hc]
    simp only [Cursor.mk.injEq, true_and]
    omega

theorem run_append {p : Char → Bool} {c : Cursor} {cs r : List Char} (h : c.rest = cs ++ r)
    (hp : ∀ ch ∈ cs, p ch) (hr : ∀ ch ∈ r.head?, p ch = false) : c.run p = cs := by
  rw [run, h, List.takeWhile_append_of_pos hp]
  cases r with
  | nil => simp
  | cons x r => simp [hr x rfl]

theorem skip_append {p : Char → Bool} {c : Cursor} {cs r : List Char} (h : c.rest = cs ++ r)
    (hp : ∀ ch ∈ cs, p ch) (hr : ∀ ch ∈ r.head?, p ch = false) (hg : ∀ ch ∈ cs, isGraphic ch) :
    c.skip p = ⟨r, c.index + cs.length, c.line, c.column + cs.length⟩ := by
  rw [skip, run_append h hp hr, steps_graphic h hg]

theorem run_eq_nil {p : Char → Bool} {c : Cursor} (h : ∀ ch ∈ c.rest.head?, p ch = false) :
    c.run p = [] :=
  run_append (show c.rest = [] ++ c.rest from rfl) (by simp) h

theorem skip_eq_self {p : Char → Bool} {c : Cursor} (h : ∀ ch ∈ c.rest.head?, p ch = false) :
    c.skip p = c := by
  rw [skip, run_eq_nil h]
  rfl

theorem isGraphic_of_mem_spaces {n : Nat} {ch : Char} (h : ch ∈ List.replicate n ' ') :
    isGraphic ch := by
  rw [List.eq_of_mem_replicate h]
  rfl

/-- Blanks are passed up to a character that is none, whatever test blanks satisfy. -/
theorem skip_spaces {p : Char → Bool} {c : Cursor} {n : Nat} {r : List Char}
    (h : c.rest = List.replicate n ' ' ++ r) (hp : p ' ') (hr : ∀ ch ∈ r.head?, p ch = false) :
    c.skip p = ⟨r, c.index + n, c.line, c.column + n⟩ := by
  have hs := skip_append h (fun ch hch => (List.eq_of_mem_replicate hch).symm ▸ hp) hr
    fun ch hch => isGraphic_of_mem_spaces hch
  rwa [List.length_replicate] at hs

theorem break?_newline {c : Cursor} {r : List Char} (h : c.rest = '\n' :: r) :
    c.break? = some ('\n', ⟨r, c.index + 1, c.line + 1, 0⟩) := by
  simp [break?, h, step_newline h]

theorem break?_eq_none {c : Cursor} (h : ∀ ch ∈ c.rest.head?, isBreak ch = false) :
    c.break? = none := by
  unfold break?
  split
  · next hc => exact absurd (h '\r' (by simp [hc])) (by decide)
  · next ch r _ hc =>
    have hb := h ch (by simp [hc])
    simp only [isBreak, Bool.or_eq_false_iff, decide_eq_false_iff_not] at hb
    obtain ⟨⟨⟨⟨h₁, h₂⟩, h₃⟩, h₄⟩, h₅⟩ := hb
    simp [h₁, h₂, h₃, h₄, h₅]
  · rfl

theorem atSeparator_eq_false {c : Cursor} (h : c.rest.head? ≠ some '-')
    (h' : c.rest.head? ≠ some '.') : c.atSeparator = false := by
  unfold atSeparator
  split
  · next hc => exact absurd (by simp [hc]) h
  · next hc => exact absurd (by simp [hc]) h'
  · rfl

end Cursor

end AuthMap.Yaml
