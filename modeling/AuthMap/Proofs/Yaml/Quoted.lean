import AuthMap.Yaml.Printer
import AuthMap.Yaml.Token.Flow
import AuthMap.Proofs.Yaml.Cursor

/-! The grammar of scalars in quotation marks, as far as they are written, and its reader. A text
is made of words and gaps, a word of characters and of pieces that stand for something else. -/

namespace AuthMap.Yaml

open Text (CodePoint)

def closingMark (double : Bool) : Char := if double then '"' else '\''

inductive EndsQuoted (double : Bool) : List Char → Prop
  | space {r : List Char} : EndsQuoted double (' ' :: r)
  | line {r : List Char} : EndsQuoted double ('\n' :: r)
  | close {r : List Char} : (double = false → r.head? ≠ some '\'') →
      EndsQuoted double (closingMark double :: r)

inductive Piece : Bool → List Char → Text → List Char → Prop
  | twice {cs : List Char} : Piece false ['\'', '\''] [.char '\''] cs
  | mark {c : Char} {cs : List Char} : c = '"' ∨ c = '\\' → Piece false [c] [.char c] cs
  | apostrophe {cs : List Char} : Piece true ['\''] [.char '\''] cs
  | letter {c e : Char} {cs : List Char} : letterEscape? e = some c →
      Piece true ['\\', e] [.char c] cs
  | number {x : Char} {digits cs : List Char} {p : CodePoint} : letterEscape? x = none →
      hexWidth? x = some digits.length → digits.all isHexDigit → hexPoint digits = .ok p →
      Piece true ('\\' :: x :: digits) [p] cs
  | join {n : Nat} {cs : List Char} : n ≠ 0 → (∀ c ∈ cs.head?, isGraphic c ∧ c ≠ ' ') →
      Piece true ('\\' :: newLine n) [] cs

inductive QuotedWord (double : Bool) : List Char → Text → List Char → Prop
  | stop {r : List Char} : EndsQuoted double r → QuotedWord double r [] r
  | run {c : Char} {cs : List Char} {t : Text} {r : List Char} : isQuotedRun c →
      QuotedWord double cs t r → QuotedWord double (c :: cs) (.char c :: t) r
  | piece {p : List Char} {s : Text} {cs : List Char} {t : Text} {r : List Char} :
      Piece double p s cs → QuotedWord double cs t r → QuotedWord double (p ++ cs) (s ++ t) r

/-- Spaces, or line breaks and the indentation behind them: one break is a space, and of several
the first does not count. -/
inductive QuotedGap : List Char → List Char → List Char → Prop
  | spaces (n : Nat) {cs : List Char} :
      QuotedGap (List.replicate (n + 1) ' ' ++ cs) (List.replicate (n + 1) ' ') cs
  | fold (k : Nat) {cs : List Char} : QuotedGap (newLine (k + 1) ++ cs) [' '] cs
  | lines (n k : Nat) {cs : List Char} :
      QuotedGap (List.replicate (n + 1) '\n' ++ newLine (k + 1) ++ cs)
        (List.replicate (n + 1) '\n') cs

/-- What is written of a text up to the closing mark, what it reads as, and what is left. -/
inductive QuotedText (double : Bool) : List Char → Text → List Char → Prop
  | close {cs : List Char} {t : Text} {r : List Char} :
      QuotedWord double cs t (closingMark double :: r) → QuotedText double cs t r
  | gap {cs gs g cs' r : List Char} {w t : Text} : QuotedWord double cs w gs →
      QuotedGap gs g cs' → (∀ c ∈ cs'.head?, isGraphic c ∧ c ≠ ' ') → cs' ≠ [] →
      QuotedText double cs' t r → QuotedText double cs (w ++ (Text.ofChars g ++ t)) r

/-! ### Reading words -/

theorem isQuotedRun_eq_false_of_endsQuoted {double : Bool} {r : List Char} {c : Char}
    (h : EndsQuoted double r) (hc : c ∈ r.head?) : isQuotedRun c = false := by
  cases h with
  | space =>
    obtain rfl : ' ' = c := by simpa using hc
    decide
  | line =>
    obtain rfl : '\n' = c := by simpa using hc
    decide
  | close _ =>
    obtain rfl : closingMark double = c := by simpa using hc
    cases double <;> decide

theorem quotedPiece_of_endsQuoted {double : Bool} {c : Cursor} (h : EndsQuoted double c.rest) :
    quotedPiece double c = .ok none := by
  unfold quotedPiece
  generalize c.rest = r at h
  cases h with
  | space => rfl
  | line => rfl
  | close hr => cases double <;> simp_all [closingMark]

theorem isTabOrSpace_eq_false {r : List Char} (hr : ∀ ch ∈ r.head?, isGraphic ch ∧ ch ≠ ' ') :
    ∀ ch ∈ r.head?, (decide (ch = ' ') || decide (ch = '\t')) = false := by
  intro ch hch
  have ht : ch ≠ '\t' := ne_of_isGraphic (hr ch hch).1 (by decide)
  simp [(hr ch hch).2, ht]

theorem quotedBreaks_spaces {c : Cursor} {n fuel : Nat} {r : List Char}
    (h : c.rest = List.replicate n ' ' ++ r) (hr : ∀ ch ∈ r.head?, isGraphic ch ∧ ch ≠ ' ')
    (hn : n ≠ 0) :
    quotedBreaks (fuel + 1) c = .ok ([], ⟨r, c.index + n, c.line, c.column + n⟩) := by
  have hsep : c.atSeparator = false := by
    obtain ⟨n, rfl⟩ := Nat.exists_eq_succ_of_ne_zero hn
    rw [List.replicate_succ] at h
    exact Cursor.atSeparator_eq_false (by simp [h]) (by simp [h])
  have hskip := Cursor.skip_spaces h (p := fun ch => ch = ' ' || ch = '\t') (by decide)
    (isTabOrSpace_eq_false hr)
  have hnone : (⟨r, c.index + n, c.line, c.column + n⟩ : Cursor).break? = none :=
    Cursor.break?_eq_none fun ch hch => isBreak_eq_false (hr ch hch).1
  simp only [quotedBreaks, hsep, Bool.false_eq_true, if_false, hskip, hnone]

theorem quotedPiece_of_piece {double : Bool} {p cs : List Char} {s : Text}
    (h : Piece double p s cs) {c : Cursor} (hc : c.rest = p ++ cs) :
    ∃ c', quotedPiece double c = .ok (some (s, c')) ∧ c'.rest = cs ∧ c.line ≤ c'.line := by
  cases h with
  | twice =>
    refine ⟨c.steps 2, by simp [quotedPiece, hc], ?_, Cursor.line_le_steps 2 c⟩
    simp [Cursor.rest_steps, hc]
  | mark hm =>
    refine ⟨c.step, ?_, by simp [Cursor.rest_step, hc], Cursor.line_le_step c⟩
    rcases hm with rfl | rfl <;> simp [quotedPiece, hc]
  | apostrophe =>
    refine ⟨c.step, by simp [quotedPiece, hc], ?_, Cursor.line_le_step c⟩
    simp [Cursor.rest_step, hc]
  | letter he =>
    refine ⟨c.steps 2, ?_, by simp [Cursor.rest_steps, hc], Cursor.line_le_steps 2 c⟩
    simp [quotedPiece, hc, escapeAt, Cursor.rest_step, he, Cursor.steps, Except.map]
  | @number x digits _ q hx hwidth hdigits hpoint =>
    refine ⟨c.step.steps (digits.length + 1), ?_, ?_,
      Nat.le_trans (Cursor.line_le_step c) (Cursor.line_le_steps _ _)⟩
    · have hrest : c.step.rest = x :: (digits ++ cs) := by simp [Cursor.rest_step, hc]
      simp [quotedPiece, hc, escapeAt, hrest, hx, hwidth, hdigits, hpoint, Except.map]
    · simp [Cursor.rest_steps, Cursor.rest_step, hc]
  | @join n _ hn hr =>
    have hstep : c.step.rest = '\n' :: (List.replicate n ' ' ++ cs) := by
      simp [Cursor.rest_step, hc, newLine]
    have hbreak := Cursor.break?_newline hstep
    have hbreaks : quotedBreaks ((List.replicate n ' ' ++ cs).length + 1)
        ⟨List.replicate n ' ' ++ cs, c.step.index + 1, c.step.line + 1, 0⟩ =
          .ok ([], ⟨cs, c.step.index + 1 + n, c.step.line + 1, 0 + n⟩) :=
      quotedBreaks_spaces rfl hr hn
    refine ⟨⟨cs, c.step.index + 1 + n, c.step.line + 1, 0 + n⟩, ?_, rfl,
      Nat.le_succ_of_le (Cursor.line_le_step c)⟩
    simp only [quotedPiece, hc, escapeAt, hstep, List.cons_append]
    simp only [if_true, show letterEscape? '\n' = none from rfl,
      show hexWidth? '\n' = none from rfl, hbreak, hbreaks]
    rfl

theorem Piece.head {double : Bool} {p cs : List Char} {s : Text} (h : Piece double p s cs) :
    ∃ c p', p = c :: p' ∧ isQuotedRun c = false ∧ c ≠ ' ' := by
  cases h with
  | twice => exact ⟨_, _, rfl, by decide⟩
  | mark hm => exact ⟨_, _, rfl, by rcases hm with rfl | rfl <;> decide⟩
  | apostrophe => exact ⟨_, _, rfl, by decide⟩
  | letter _ => exact ⟨_, _, rfl, by decide⟩
  | number _ _ _ _ => exact ⟨_, _, rfl, by decide⟩
  | join _ _ => exact ⟨_, _, rfl, by decide⟩

theorem quotedWord_run {double : Bool} {fuel : Nat} {c : Cursor} {ch : Char} {cs : List Char}
    (hc : c.rest = ch :: cs) (hr : isQuotedRun ch) :
    quotedWord double (fuel + 1) c =
      (quotedWord double (fuel + 1) c.step).map fun r => (.char ch :: r.1, r.2) := by
  have hrun : c.run isQuotedRun = ch :: c.step.run isQuotedRun := by
    simp [Cursor.run, Cursor.rest_step, hc, hr]
  simp only [quotedWord, hrun, List.length_cons, Cursor.steps]
  cases quotedPiece double (c.step.steps (c.step.run isQuotedRun).length) with
  | error f => rfl
  | ok o =>
    cases o with
    | none => rfl
    | some r =>
      cases h : quotedWord double fuel r.2 with
      | error f => simp [bind, Except.bind, Except.map, h]
      | ok x => simp [bind, Except.bind, Except.map, h, pure, Except.pure, Text.ofChars]

theorem quotedWord_of_quotedWord {double : Bool} {cs r : List Char} {t : Text}
    (h : QuotedWord double cs t r) {c : Cursor} (hc : c.rest = cs) (fuel : Nat)
    (hf : cs.length < fuel) :
    ∃ c', quotedWord double fuel c = .ok (t, c') ∧ c'.rest = r ∧ c.line ≤ c'.line := by
  obtain ⟨fuel, rfl⟩ := Nat.exists_eq_succ_of_ne_zero (Nat.ne_zero_of_lt hf)
  -- the reader takes a whole run at once, so only pieces take from its fuel
  induction h generalizing c fuel with
  | @stop r hr =>
    have hrun : c.run isQuotedRun = [] :=
      Cursor.run_eq_nil fun ch hch => isQuotedRun_eq_false_of_endsQuoted hr (hc ▸ hch)
    refine ⟨c, ?_, hc, Nat.le_refl _⟩
    simp only [quotedWord, hrun, List.length_nil, Cursor.steps,
      quotedPiece_of_endsQuoted (hc ▸ hr)]
    rfl
  | @run ch cs t r hch _ ih =>
    obtain ⟨c', hw, hr, hl⟩ := ih (c := c.step) (by simp [Cursor.rest_step, hc]) fuel
      (Nat.lt_of_succ_lt hf)
    refine ⟨c', ?_, hr, Nat.le_trans (Cursor.line_le_step c) hl⟩
    rw [quotedWord_run hc hch, hw]
    rfl
  | @piece p s cs t r hp _ ih =>
    obtain ⟨x, p', rfl, hx, -⟩ := hp.head
    have hrun : c.run isQuotedRun = [] := Cursor.run_eq_nil fun ch hch => by
      obtain rfl : x = ch := by simpa [hc] using hch
      exact hx
    obtain ⟨c₁, hpiece, hc₁, hl₁⟩ := quotedPiece_of_piece hp hc
    rw [List.length_append, List.length_cons] at hf
    obtain ⟨fuel, rfl⟩ := Nat.exists_eq_succ_of_ne_zero (show fuel ≠ 0 by omega)
    obtain ⟨c₂, hw, hr, hl₂⟩ := ih hc₁ fuel (by omega)
    refine ⟨c₂, ?_, hr, Nat.le_trans hl₁ hl₂⟩
    rw [quotedWord]
    simp only [hrun, List.length_nil, Cursor.steps, hpiece, bind, Except.bind, hw]
    rfl

theorem QuotedWord.length_le {double : Bool} {cs r : List Char} {t : Text}
    (h : QuotedWord double cs t r) : r.length ≤ cs.length := by
  induction h with
  | stop _ => exact Nat.le_refl _
  | run _ _ ih => exact Nat.le_succ_of_le ih
  | piece _ _ ih =>
    rw [List.length_append]
    omega

/-! ### Reading gaps and texts -/

theorem quotedBreaks_newline {c : Cursor} {r : List Char} (h : c.rest = '\n' :: r) (fuel : Nat) :
    quotedBreaks (fuel + 1) c =
      (quotedBreaks fuel ⟨r, c.index + 1, c.line + 1, 0⟩).map fun x => ('\n' :: x.1, x.2) := by
  have hsep : c.atSeparator = false := Cursor.atSeparator_eq_false (by simp [h]) (by simp [h])
  have hskip : c.skip (fun ch => ch = ' ' || ch = '\t') = c :=
    Cursor.skip_eq_self (by simp [h])
  simp only [quotedBreaks, hsep, Bool.false_eq_true, if_false, hskip, Cursor.break?_newline h]
  cases quotedBreaks fuel ⟨r, c.index + 1, c.line + 1, 0⟩ <;> rfl

theorem quotedBreaks_lines {c : Cursor} {n k : Nat} {r : List Char}
    (h : c.rest = List.replicate n '\n' ++ (newLine (k + 1) ++ r))
    (hr : ∀ ch ∈ r.head?, isGraphic ch ∧ ch ≠ ' ') (fuel : Nat) (hf : n + 1 < fuel) :
    ∃ c', quotedBreaks fuel c = .ok (List.replicate (n + 1) '\n', c') ∧ c'.rest = r ∧
      c.line < c'.line := by
  obtain ⟨fuel, rfl⟩ := Nat.exists_eq_succ_of_ne_zero (Nat.ne_zero_of_lt hf)
  induction n generalizing c fuel with
  | zero =>
    obtain ⟨fuel, rfl⟩ := Nat.exists_eq_succ_of_ne_zero (show fuel ≠ 0 by omega)
    refine ⟨⟨r, c.index + 1 + (k + 1), c.line + 1, 0 + (k + 1)⟩, ?_, rfl, Nat.lt_succ_self _⟩
    rw [quotedBreaks_newline h, quotedBreaks_spaces rfl hr (Nat.succ_ne_zero k)]
    rfl
  | succ n ih =>
    obtain ⟨fuel, rfl⟩ := Nat.exists_eq_succ_of_ne_zero (show fuel ≠ 0 by omega)
    rw [List.replicate_succ, List.cons_append] at h
    obtain ⟨c', hbreaks, hrest, hline⟩ :=
      ih (c := ⟨_, c.index + 1, c.line + 1, 0⟩) rfl fuel (by omega)
    refine ⟨c', ?_, hrest, Nat.lt_of_succ_lt hline⟩
    rw [quotedBreaks_newline h, hbreaks]
    rfl

/-- A gap that begins with a line break is read as the breaks that follow the first. -/
theorem quotedGap_newline {c : Cursor} {r : List Char} (h : c.rest = '\n' :: r) :
    quotedGap c = (quotedBreaks (r.length + 1) ⟨r, c.index + 1, c.line + 1, 0⟩).map
      fun x => (foldBreak '\n' x.1, x.2) := by
  have hskip : c.skip (fun ch => ch = ' ' || ch = '\t') = c :=
    Cursor.skip_eq_self (by simp [h])
  have hne : c.rest.isEmpty = false := by simp [h]
  simp only [quotedGap, hskip, hne, Bool.false_eq_true, if_false, Cursor.break?_newline h]
  cases quotedBreaks (r.length + 1) ⟨r, c.index + 1, c.line + 1, 0⟩ <;> rfl

theorem quotedGap_of_quotedGap {gs g r : List Char} (h : QuotedGap gs g r)
    (hr : ∀ ch ∈ r.head?, isGraphic ch ∧ ch ≠ ' ') (hne : r ≠ []) {c : Cursor} (hc : c.rest = gs) :
    ∃ c', quotedGap c = .ok (g, c') ∧ c'.rest = r ∧ c.line ≤ c'.line := by
  cases h with
  | spaces n =>
    have hskip := Cursor.skip_spaces hc (p := fun ch => ch = ' ' || ch = '\t') (by decide)
      (isTabOrSpace_eq_false hr)
    have hrun := Cursor.run_append hc (p := fun ch => ch = ' ' || ch = '\t') (by simp)
      (isTabOrSpace_eq_false hr)
    have hnone : (⟨r, c.index + (n + 1), c.line, c.column + (n + 1)⟩ : Cursor).break? = none :=
      Cursor.break?_eq_none fun ch hch => isBreak_eq_false (hr ch hch).1
    refine ⟨⟨r, c.index + (n + 1), c.line, c.column + (n + 1)⟩, ?_, rfl, Nat.le_refl _⟩
    have he : r.isEmpty = false := by simpa using hne
    simp only [quotedGap, hskip, hrun, he, Bool.false_eq_true, if_false, hnone]
    rfl
  | fold k =>
    refine ⟨⟨r, c.index + 1 + (k + 1), c.line + 1, 0 + (k + 1)⟩, ?_, rfl, Nat.le_succ _⟩
    rw [quotedGap_newline hc, List.append_eq, quotedBreaks_spaces rfl hr (Nat.succ_ne_zero k)]
    rfl
  | lines n k =>
    rw [List.append_assoc, List.replicate_succ, List.cons_append] at hc
    obtain ⟨c', hbreaks, hrest, hline⟩ := quotedBreaks_lines (n := n) (k := k) (r := r)
      (c := ⟨_, c.index + 1, c.line + 1, 0⟩) rfl hr
      ((List.replicate n '\n' ++ (newLine (k + 1) ++ r)).length + 1) (by simp [newLine])
    refine ⟨c', ?_, hrest, Nat.le_of_lt (Nat.lt_of_succ_lt hline)⟩
    rw [quotedGap_newline hc, hbreaks]
    rfl

theorem QuotedGap.length_lt {gs g r : List Char} (h : QuotedGap gs g r) :
    r.length < gs.length := by
  cases h with
  | spaces n =>
    rw [List.length_append, List.length_replicate]
    omega
  | fold k =>
    rw [newLine, List.length_append, List.length_cons]
    omega
  | lines n k =>
    rw [List.length_append, List.length_append, List.length_replicate]
    omega

theorem QuotedText.length_lt {double : Bool} {cs r : List Char} {t : Text}
    (h : QuotedText double cs t r) : r.length < cs.length := by
  induction h with
  | close hw => exact hw.length_le
  | gap hw hg _ _ _ ih => exact Nat.lt_trans ih (Nat.lt_of_lt_of_le hg.length_lt hw.length_le)

theorem quotedText_of_quotedText {double : Bool} {cs r : List Char} {t : Text}
    (h : QuotedText double cs t r) {c : Cursor} (hc : c.rest = cs) (fuel : Nat)
    (hf : cs.length < fuel) :
    ∃ c', quotedText double fuel c = .ok (t, c') ∧ c'.rest = r ∧ c.line ≤ c'.line := by
  -- one word and one gap for each turn of the reader
  induction h generalizing c fuel with
  | @close cs t r hw =>
    obtain ⟨fuel, rfl⟩ := Nat.exists_eq_succ_of_ne_zero (Nat.ne_zero_of_lt hf)
    obtain ⟨c₁, hword, hrest, hline⟩ := quotedWord_of_quotedWord hw hc
      (c.rest.length + 1) (by simp [hc])
    have hpeek : c₁.peek = some (if double then '"' else '\'') := by
      simp [Cursor.peek, hrest, closingMark]
    refine ⟨c₁.step, ?_, by simp [Cursor.rest_step, hrest],
      Nat.le_trans hline (Cursor.line_le_step c₁)⟩
    simp only [quotedText, hword, bind, Except.bind, hpeek, if_true]
    rfl
  | @gap cs gs g cs' r w t hw hg hhead hne _ ih =>
    obtain ⟨fuel, rfl⟩ := Nat.exists_eq_succ_of_ne_zero (Nat.ne_zero_of_lt hf)
    obtain ⟨c₁, hword, hrest, hline⟩ := quotedWord_of_quotedWord hw hc
      (c.rest.length + 1) (by simp [hc])
    have hpeek : c₁.peek ≠ some (if double then '"' else '\'') := by
      rw [Cursor.peek, hrest]
      cases hg <;> cases double <;> simp [newLine, List.replicate_succ]
    obtain ⟨c₂, hgap, hrest₂, hline₂⟩ := quotedGap_of_quotedGap hg hhead hne hrest
    have hlen := hw.length_le
    have hlt := hg.length_lt
    obtain ⟨c₃, htext, hrest₃, hline₃⟩ := ih hrest₂ fuel (by omega)
    refine ⟨c₃, ?_, hrest₃, by omega⟩
    simp only [quotedText, hword, bind, Except.bind, if_neg hpeek, hgap, htext]
    rw [← List.append_assoc]
    rfl

end AuthMap.Yaml
