import AuthMap.Proofs.Yaml.Quoted

/-! What is written in quotation marks follows the grammar of quoted scalars, so that it reads
back as it was. -/

namespace AuthMap.Yaml

namespace QuotedText

variable {double : Bool} {cs r : List Char} {t : Text}

theorem run {c : Char} (hc : isQuotedRun c) (h : QuotedText double cs t r) :
    QuotedText double (c :: cs) (.char c :: t) r := by
  cases h with
  | close hw => exact .close (.run hc hw)
  | gap hw hg hv hne ht => exact .gap (.run hc hw) hg hv hne ht

theorem piece {p : List Char} {s : Text} (hp : Piece double p s cs)
    (h : QuotedText double cs t r) : QuotedText double (p ++ cs) (s ++ t) r := by
  cases h with
  | close hw => exact .close (.piece hp hw)
  | gap hw hg hv hne ht =>
    rw [← List.append_assoc]
    exact .gap (.piece hp hw) hg hv hne ht

theorem gap_first {gs g : List Char} (hg : QuotedGap gs g cs)
    (hv : ∀ c ∈ cs.head?, isGraphic c ∧ c ≠ ' ') (hne : cs ≠ []) (h : QuotedText double cs t r) :
    QuotedText double gs (Text.ofChars g ++ t) r := by
  have hends : EndsQuoted double gs := by
    cases hg with
    | spaces n => exact .space
    | fold k => exact .line
    | lines n k => exact .line
  exact .gap (.stop hends) hg hv hne h

end QuotedText

theorem QuotedWord.eq_of_space {double : Bool} {cs r : List Char} {t : Text}
    (h : QuotedWord double (' ' :: cs) t r) : t = [] ∧ r = ' ' :: cs := by
  generalize hx : ' ' :: cs = x at h
  cases h with
  | stop _ => exact ⟨rfl, rfl⟩
  | run hc _ =>
    obtain ⟨rfl, -⟩ := List.cons.inj hx
    exact absurd hc (by decide)
  | piece hp _ =>
    obtain ⟨c, p, rfl, -, hc⟩ := hp.head
    exact absurd (List.cons.inj hx).1.symm hc

theorem QuotedText.ne_nil {double : Bool} {cs r : List Char} {t : Text}
    (h : QuotedText double cs t r) : cs ≠ [] := by
  rintro rfl
  exact absurd h.length_lt (Nat.not_lt_zero _)

/-- A space before a text belongs to its first gap, if it begins with one, and is a gap of its
own otherwise. -/
theorem QuotedText.space {double : Bool} {cs r : List Char} {t : Text}
    (hcs : ∀ c ∈ cs.head?, isGraphic c) (h : QuotedText double cs t r) :
    QuotedText double (' ' :: cs) (.char ' ' :: t) r := by
  by_cases hs : cs.head? = some ' '
  · obtain ⟨cs, rfl⟩ := List.head?_eq_some_iff.mp hs
    cases h with
    | close hw =>
      obtain ⟨-, hr⟩ := hw.eq_of_space
      cases double <;> exact absurd (List.cons.inj hr).1 (by decide)
    | @gap _ gs g cs' _ w t hw hg hv hne ht =>
      obtain ⟨rfl, rfl⟩ := hw.eq_of_space
      generalize hx : ' ' :: cs = x at hg
      cases hg with
      | spaces n =>
        rw [show ' ' :: (List.replicate (n + 1) ' ' ++ cs') =
          List.replicate (n + 2) ' ' ++ cs' from rfl]
        exact .gap_first (.spaces (n + 1)) hv hne ht
      | fold k => exact absurd (List.cons.inj hx).1 (by decide)
      | lines n k => exact absurd (List.cons.inj hx).1 (by decide)
  · exact .gap_first (.spaces 0) (fun c hc => ⟨hcs c hc, fun he => hs (he ▸ hc)⟩) h.ne_nil h

/-! ### Single quotes -/

theorem isQuotedRun_of_isGraphic {c : Char} (h : isGraphic c) (hs : c ≠ ' ') (ha : c ≠ '\'')
    (hq : c ≠ '"') (hb : c ≠ '\\') : isQuotedRun c := by
  simp [isQuotedRun, ha, hq, hb, endsWord_eq_false h hs]

theorem singleFrom_lines {after : Option Char} (ha : after ≠ some '\n') (indent column n : Nat)
    {cs : List Char} (hcs : cs.head? ≠ some '\n') :
    singleFrom indent after column (List.replicate (n + 1) '\n' ++ cs) =
      List.replicate (n + 1) '\n' ++ newLine indent ++
        singleFrom indent (some '\n') indent cs := by
  have hrest (n : Nat) : singleFrom indent (some '\n') column (List.replicate (n + 1) '\n' ++ cs) =
      List.replicate n '\n' ++ newLine indent ++ singleFrom indent (some '\n') indent cs := by
    induction n with
    | zero => simp [singleFrom, hcs]
    | succ n ih =>
      rw [List.replicate_succ, List.cons_append, singleFrom, ih]
      simp [List.replicate_succ]
  cases n with
  | zero => simp [singleFrom, hcs, ha]
  | succ n =>
    rw [List.replicate_succ, List.cons_append, singleFrom, hrest]
    simp [List.replicate_succ, ha]

theorem head?_singleFrom {c : Char} (hs : c ≠ ' ') (hl : c ≠ '\n') (indent : Nat)
    (after : Option Char) (column : Nat) (cs : List Char) :
    (singleFrom indent after column (c :: cs)).head? = some c := by
  rw [singleFrom, if_neg hs, if_neg hl]
  split
  · next h => simp [h]
  · rfl

namespace Style

theorem hasRagged_of_cons {c : Char} {cs : List Char} (h : hasRagged (c :: cs) = false) :
    hasRagged cs = false := by
  unfold hasRagged at h
  split at h <;> simp_all

theorem hasRagged_append_right (as : List Char) {bs : List Char}
    (h : hasRagged (as ++ bs) = false) : hasRagged bs = false := by
  induction as with
  | nil => exact h
  | cons a as ih => exact ih (hasRagged_of_cons h)

theorem head?_ne_newline {cs : List Char} (h : hasRagged (' ' :: cs) = false) :
    cs.head? ≠ some '\n' := by
  cases cs with
  | nil => simp
  | cons c cs =>
    rintro hc
    obtain rfl : c = '\n' := by simpa using hc
    simp [hasRagged] at h

theorem head?_ne_space {cs : List Char} (h : hasRagged ('\n' :: cs) = false) :
    cs.head? ≠ some ' ' := by
  cases cs with
  | nil => simp
  | cons c cs =>
    rintro hc
    obtain rfl : c = ' ' := by simpa using hc
    simp [hasRagged] at h

end Style

theorem visible_singleFrom {cs : List Char} (hp : ∀ c ∈ cs, isPrinted c)
    (hs : cs.head? ≠ some ' ') (hl : cs.head? ≠ some '\n') (indent : Nat) (after : Option Char)
    (column : Nat) (r : List Char) {c : Char}
    (hc : c ∈ (singleFrom indent after column cs ++ '\'' :: r).head?) :
    isGraphic c ∧ c ≠ ' ' := by
  cases cs with
  | nil =>
    obtain rfl : '\'' = c := by simpa [singleFrom] using hc
    decide
  | cons d cs =>
    have hd : d ≠ ' ' := by simpa using hs
    have hd' : d ≠ '\n' := by simpa using hl
    rw [List.head?_append, head?_singleFrom hd hd'] at hc
    obtain rfl : d = c := by simpa using hc
    have hg := hp d List.mem_cons_self
    exact ⟨by simpa [isPrinted, hd'] using hg, hd⟩

section SingleFrom

variable {k : Nat} {cs r : List Char}

/-- A space is written as it is, or as a fold where the line is long. -/
theorem quotedText_singleFrom_space (hp : ∀ c ∈ cs, isPrinted c)
    (hl : cs.head? ≠ some '\n') (after : Option Char) (column : Nat)
    (hrec : ∀ column, QuotedText false (singleFrom (k + 1) (some ' ') column cs ++ '\'' :: r)
      (Text.ofChars cs) r) :
    QuotedText false (singleFrom (k + 1) after column (' ' :: cs) ++ '\'' :: r)
      (Text.ofChars (' ' :: cs)) r := by
  rw [singleFrom, if_pos rfl]
  split
  · next hf =>
    have hs : cs.head? ≠ some ' ' := by
      intro h
      simp [h] at hf
    rw [List.append_assoc]
    exact .gap_first (.fold k) (fun c hc => visible_singleFrom hp hs hl _ _ _ _ hc) (by simp)
      (hrec _)
  · refine .space (fun c hc => ?_) (hrec _)
    by_cases hs : cs.head? = some ' '
    · obtain ⟨cs, rfl⟩ := List.head?_eq_some_iff.mp hs
      simp only [singleFrom] at hc
      obtain rfl : ' ' = c := by simpa using hc
      rfl
    · exact (visible_singleFrom hp hs hl _ _ _ _ hc).1

/-- A character that is shown is written as it is, a mark of the quotes twice. -/
theorem quotedText_singleFrom_graphic {c : Char} (hg : isGraphic c) (hs : c ≠ ' ') (hl : c ≠ '\n')
    (after : Option Char) (column : Nat)
    (hrec : ∀ column, QuotedText false (singleFrom (k + 1) (some c) column cs ++ '\'' :: r)
      (Text.ofChars cs) r) :
    QuotedText false (singleFrom (k + 1) after column (c :: cs) ++ '\'' :: r)
      (Text.ofChars (c :: cs)) r := by
  rw [singleFrom, if_neg hs, if_neg hl]
  split
  · next hm =>
    subst hm
    exact .piece .twice (hrec _)
  · next hm =>
    by_cases hmark : c = '"' ∨ c = '\\'
    · exact .piece (.mark hmark) (hrec _)
    · obtain ⟨hq, hb⟩ := not_or.mp hmark
      exact .run (isQuotedRun_of_isGraphic hg hs hm hq hb) (hrec _)

end SingleFrom

theorem quotedText_singleFrom {indent : Nat} (hi : indent ≠ 0) {cs r : List Char}
    (hp : ∀ c ∈ cs, isPrinted c) (hr : Style.hasRagged cs = false) (hq : r.head? ≠ some '\'')
    (after : Option Char) (column : Nat)
    (ha : after = some '\n' → cs.head? ≠ some '\n') :
    QuotedText false (singleFrom indent after column cs ++ '\'' :: r) (Text.ofChars cs) r := by
  obtain ⟨k, rfl⟩ := Nat.exists_eq_succ_of_ne_zero hi
  -- a run of line feeds is read as one gap, so the rest may be shorter by more than one
  induction hn : cs.length using Nat.strongRecOn generalizing cs after column with
  | ind n ih =>
    cases cs with
    | nil => exact .close (.stop (.close fun _ => hq))
    | cons c cs =>
      have hpcs : ∀ x ∈ cs, isPrinted x := fun x hx => hp x (List.mem_cons_of_mem _ hx)
      have hrcs := Style.hasRagged_of_cons hr
      have hlt : cs.length < n := by rw [← hn]; exact Nat.lt_succ_self _
      by_cases hl : c = '\n'
      · subst hl
        obtain ⟨m, rest, hrest, hhead⟩ := exists_front '\n' cs
        subst hrest
        have hsp : rest.head? ≠ some ' ' := by
          refine Style.head?_ne_space (Style.hasRagged_append_right (List.replicate m '\n') ?_)
          rwa [List.append_cons, ← List.replicate_succ', List.replicate_succ]
        have hprest : ∀ x ∈ rest, isPrinted x := fun x hx => hpcs x (List.mem_append_right _ hx)
        have hafter : after ≠ some '\n' := fun h => ha h rfl
        have hlen : rest.length < n := by
          rw [List.length_append] at hlt
          omega
        have hrec := ih rest.length hlen hprest (Style.hasRagged_append_right _ hrcs) (some '\n')
          (k + 1) (fun _ => hhead) rfl
        rw [← List.cons_append, ← List.replicate_succ, singleFrom_lines hafter _ _ _ hhead,
          List.append_assoc, Text.ofChars, List.map_append]
        exact .gap_first (.lines m k)
          (fun c hc => visible_singleFrom hprest hsp hhead _ _ _ _ hc) (by simp) hrec
      have hrec (column : Nat) := ih cs.length hlt hpcs hrcs (some c) column
        (fun h => absurd (Option.some.inj h) hl) rfl
      by_cases hs : c = ' '
      · subst hs
        exact quotedText_singleFrom_space hpcs (Style.head?_ne_newline hr) after column hrec
      · have hg : isGraphic c := by simpa [isPrinted, hl] using hp c List.mem_cons_self
        exact quotedText_singleFrom_graphic hg hs hl after column hrec

end AuthMap.Yaml
