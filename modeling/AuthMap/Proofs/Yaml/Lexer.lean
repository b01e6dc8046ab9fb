import AuthMap.Yaml.Token.Lexer
import AuthMap.Proofs.Yaml.Escapes
import AuthMap.Proofs.Yaml.Plain

/-! The lexer in block context, one token at a time: how it comes to the place of a token, what
each token of printed text leaves behind, and what a run of such steps amounts to. -/

namespace AuthMap.Yaml

theorem Cursor.skipComment_blank {c : Cursor} {m : Nat} {r : List Char}
    (h : c.rest = List.replicate m ' ' ++ r) (hr : r.head? ≠ some ' ') (hr' : r.head? ≠ some '#') :
    c.skipComment = ⟨r, c.index + m, c.line, c.column + m⟩ := by
  have hskip := Cursor.skip_spaces h (p := fun ch => decide (ch = ' ')) (by decide)
    fun ch hch => by
      have hne : ch ≠ ' ' := fun he => hr (he ▸ hch)
      simp [hne]
  simp only [Cursor.skipComment, Cursor.skipSpaces, hskip, Cursor.peek, if_neg hr']

namespace Lexer

def inBlock (c : Cursor) (i : Int) (os : List Int) (allowed : Bool) (k : Option Candidate)
    (ts : List Token) (n : Nat) : Lexer :=
  { cursor := c, indent := i, outer := os, flow := 0, keyAllowed := allowed, candidate := k,
    around := [], tokens := ts, count := n }

/-- The lexer at the place of its next token, where block collections that reach no further have
ended. -/
def ready (s : Lexer) : Except Fault Lexer := do
  let s ← s.skipToToken.renewCandidates
  pure (s.unwind s.cursor.column)

def dispatch (s : Lexer) : Except Fault (Lexer ⊕ Lexer) :=
  match s.cursor.peek with
  | none => do pure (.inr ((← s.closeAll).emit .streamEnd))
  | some ch => do pure (.inl (← s.next ch))

theorem advance_of_ready {s s' : Lexer} (h : s.ready = .ok s') : s.advance = s'.dispatch := by
  unfold ready at h
  unfold advance dispatch
  cases hr : s.skipToToken.renewCandidates with
  | error f => simp [hr, bind, Except.bind] at h
  | ok s₁ =>
    rw [hr] at h
    obtain rfl := Except.ok.inj h
    rfl

/-! ### Coming to a token -/

theorem skipLines_blank {s : Lexer} {m : Nat} {r : List Char}
    (h : s.cursor.rest = List.replicate m ' ' ++ r)
    (hr : ∀ ch ∈ r.head?, isGraphic ch ∧ ch ≠ ' ' ∧ ch ≠ '#') (fuel : Nat) :
    s.skipLines (fuel + 1) =
      s.moved ⟨r, s.cursor.index + m, s.cursor.line, s.cursor.column + m⟩ := by
  have hskip := Cursor.skipComment_blank h (fun he => (hr ' ' he).2.1 rfl)
    fun he => (hr '#' he).2.2 rfl
  have hbreak : (⟨r, s.cursor.index + m, s.cursor.line, s.cursor.column + m⟩ : Cursor).break? =
      none := Cursor.break?_eq_none fun ch hch => isBreak_eq_false (hr ch hch).1
  simp only [skipLines, hskip, hbreak]

theorem skipToToken_blank {s : Lexer} {m : Nat} {r : List Char}
    (h : s.cursor.rest = List.replicate m ' ' ++ r)
    (hr : ∀ ch ∈ r.head?, isGraphic ch ∧ ch ≠ ' ' ∧ ch ≠ '#') :
    s.skipToToken = s.moved ⟨r, s.cursor.index + m, s.cursor.line, s.cursor.column + m⟩ := by
  have hmark : s.cursor.peek ≠ some byteOrderMark := by
    intro hp
    rw [Cursor.peek, h] at hp
    cases m with
    | zero => exact absurd (hr _ hp).1 (by decide)
    | succ m => exact absurd (Option.some.inj hp) (by decide)
  rw [skipToToken]
  simp only [hmark, decide_false, Bool.and_false, Bool.false_eq_true, if_false]
  exact skipLines_blank h hr _

theorem skipToToken_line {s : Lexer} {m : Nat} {r : List Char} (hf : s.flow = 0)
    (h : s.cursor.rest = '\n' :: (List.replicate m ' ' ++ r))
    (hr : ∀ ch ∈ r.head?, isGraphic ch ∧ ch ≠ ' ' ∧ ch ≠ '#') :
    s.skipToToken =
      (s.moved ⟨r, s.cursor.index + 1 + m, s.cursor.line + 1, m⟩).allowKey true := by
  have hmark : s.cursor.peek ≠ some byteOrderMark := by
    rw [Cursor.peek, h, List.head?_cons]
    decide
  have hskip : s.cursor.skipComment = s.cursor :=
    Cursor.skipComment_blank (m := 0) rfl (by simp [h]) (by simp [h])
  rw [skipToToken]
  simp only [hmark, decide_false, Bool.and_false, Bool.false_eq_true, if_false, h,
    List.length_cons, moved]
  rw [skipLines]
  simp only [hskip, Cursor.break?_newline h]
  rw [skipLines_blank rfl hr]
  simp [hf, moved, allowKey]

theorem unwindTo_stay {s : Lexer} {column : Int} (h : s.indent ≤ column) (os : List Int) :
    unwindTo column os s = { s with outer := os } := by
  cases os <;> simp [unwindTo, h]

theorem unwindTo_pop {s : Lexer} {column : Int} (h : column < s.indent) (j : Int)
    (os : List Int) :
    unwindTo column (j :: os) s = unwindTo column os { s.emit .blockEnd with indent := j } := by
  conv_lhs => unfold unwindTo
  simp [Int.not_le.mpr h]

/-- Block collections end down to the indentation of a column, as many as the number. -/
inductive Unwinds (column : Int) : Int → List Int → Nat → Int → List Int → Prop
  | stay (i : Int) (os : List Int) : i ≤ column → Unwinds column i os 0 i os
  | pop {i j i' : Int} {os os' : List Int} {k : Nat} : column < i →
      Unwinds column j os k i' os' → Unwinds column i (j :: os) (k + 1) i' os'

theorem unwindTo_of_unwinds {column : Int} {k : Nat} {i i' : Int} {os os' : List Int}
    (h : Unwinds column i os k i' os') (c : Cursor) (outer : List Int) (b : Bool)
    (ca : Option Candidate) (ts : List Token) (n : Nat) :
    unwindTo column os (inBlock c i outer b ca ts n) =
      inBlock c i' os' b ca (List.replicate k .blockEnd ++ ts) (n + k) := by
  induction h generalizing ts n with
  | stay i os hi => exact unwindTo_stay hi _
  | @pop i j i' os os' k hi _ ih =>
    rw [unwindTo_pop hi]
    change unwindTo column os (inBlock c j outer b ca (.blockEnd :: ts) (n + 1)) = _
    rw [ih, List.replicate_succ', List.append_assoc, Nat.add_assoc, Nat.add_comm 1]
    rfl

theorem unwind_of_unwinds {column : Int} {k : Nat} {i i' : Int} {os os' : List Int}
    (h : Unwinds column i os k i' os') (c : Cursor) (b : Bool) (ca : Option Candidate)
    (ts : List Token) (n : Nat) :
    (inBlock c i os b ca ts n).unwind column =
      inBlock c i' os' b ca (List.replicate k .blockEnd ++ ts) (n + k) :=
  unwindTo_of_unwinds h c os b ca ts n

/-- A lexer is at the place of its next token once it has passed what comes before it, its
candidate has lapsed, and it has ended the block collections that reach no further. -/
theorem ready_of_unwinds {c c' : Cursor} {i i' : Int} {os os' : List Int} {b b' : Bool}
    {ca : Option Candidate} {ts : List Token} {n k : Nat}
    (hs : (inBlock c i os b ca ts n).skipToToken = inBlock c' i os b' ca ts n)
    (hc : ∀ x ∈ ca, x.required = false ∧ x.line < c'.line)
    (hu : Unwinds c'.column i os k i' os') :
    (inBlock c i os b ca ts n).ready =
      .ok (inBlock c' i' os' b' none (List.replicate k .blockEnd ++ ts) (n + k)) := by
  have hr : renew c' ca = .ok none := by
    cases ca with
    | none => rfl
    | some x =>
      obtain ⟨hreq, hline⟩ := hc x rfl
      simp [renew, lapsed, hreq, Nat.ne_of_lt hline]
  have hn : (inBlock c' i os b' ca ts n).renewCandidates =
      .ok (inBlock c' i os b' none ts n) := by
    simp only [renewCandidates, inBlock, hr]
    rfl
  rw [ready, hs, hn]
  exact congrArg Except.ok (unwind_of_unwinds hu c' b' none ts n)

theorem ready_blank {c : Cursor} {m k : Nat} {r : List Char} {i i' : Int} {os os' : List Int}
    (b : Bool) {ca : Option Candidate} (ts : List Token) (n : Nat)
    (h : c.rest = List.replicate m ' ' ++ r)
    (hr : ∀ ch ∈ r.head?, isGraphic ch ∧ ch ≠ ' ' ∧ ch ≠ '#')
    (hc : ∀ x ∈ ca, x.required = false ∧ x.line < c.line)
    (hu : Unwinds ((c.column + m : Nat) : Int) i os k i' os') :
    (inBlock c i os b ca ts n).ready =
      .ok (inBlock ⟨r, c.index + m, c.line, c.column + m⟩ i' os' b none
        (List.replicate k .blockEnd ++ ts) (n + k)) :=
  ready_of_unwinds (skipToToken_blank h hr) hc hu

theorem ready_line {c : Cursor} {m k : Nat} {r : List Char} {i i' : Int} {os os' : List Int}
    (b : Bool) {ca : Option Candidate} (ts : List Token) (n : Nat)
    (h : c.rest = '\n' :: (List.replicate m ' ' ++ r))
    (hr : ∀ ch ∈ r.head?, isGraphic ch ∧ ch ≠ ' ' ∧ ch ≠ '#')
    (hc : ∀ x ∈ ca, x.required = false ∧ x.line ≤ c.line)
    (hu : Unwinds (m : Int) i os k i' os') :
    (inBlock c i os b ca ts n).ready =
      .ok (inBlock ⟨r, c.index + 1 + m, c.line + 1, m⟩ i' os' true none
        (List.replicate k .blockEnd ++ ts) (n + k)) :=
  ready_of_unwinds (skipToToken_line rfl h hr)
    (fun x hx => ⟨(hc x hx).1, Nat.lt_succ_of_le (hc x hx).2⟩) hu

/-! ### Runs -/

/-- From this rest, at this column and with these block collections open, the lexer goes on to
find the given tokens. -/
def Lexes (r : List Char) (column : Nat) (i : Int) (os : List Int) (b : Bool)
    (out : List Token) : Prop :=
  ∀ (s : Lexer) (c : Cursor) (ts : List Token) (n : Nat), c.rest = r → c.column = column →
    s.ready = .ok (inBlock c i os b none ts n) →
    r.length ≤ s.cursor.rest.length →
      ∀ fuel, s.cursor.rest.length < fuel → s.run fuel = out.reverse ++ ts

theorem run_of_advance {s s' : Lexer} {ts : List Token} (h : s.advance = .ok (.inl s'))
    (hl : s'.cursor.rest.length < s.cursor.rest.length)
    (ht : ∀ fuel, s'.cursor.rest.length < fuel → s'.run fuel = ts) (fuel : Nat)
    (hf : s.cursor.rest.length < fuel) : s.run fuel = ts := by
  cases fuel with
  | zero => omega
  | succ fuel =>
    rw [run, h]
    exact ht fuel (by omega)

/-- One token, or one with those that it brings, and the run from the next place on. -/
theorem lexes_of_dispatch {r r' : List Char} {column column' : Nat} {i i' : Int}
    {os os' : List Int} {b b' : Bool} {out : List Token} (front : List Token)
    (h : Lexes r' column' i' os' b' out)
    (hd : ∀ c ts n, c.rest = r → c.column = column → ∃ s c' n',
      (inBlock c i os b none ts n).dispatch = .ok (.inl s) ∧ s.cursor.rest.length < r.length ∧
        r'.length ≤ s.cursor.rest.length ∧ c'.rest = r' ∧ c'.column = column' ∧
          s.ready = .ok (inBlock c' i' os' b' none (front.reverse ++ ts) n')) :
    Lexes r column i os b (front ++ out) := by
  intro s c ts n hc hcol hs hl fuel hf
  obtain ⟨s', c', n', hnext, hlt, hle, hc', hcol', hs'⟩ := hd c ts n hc hcol
  rw [List.reverse_append, List.append_assoc]
  exact run_of_advance ((advance_of_ready hs).trans hnext) (Nat.lt_of_lt_of_le hlt hl)
    (h s' c' _ n' hc' hcol' hs' hle) fuel hf

theorem lexes_end {column k : Nat} {i i' : Int} {os os' : List Int} {b : Bool}
    (hu : Unwinds (-1) i os k i' os') :
    Lexes [] column i os b (List.replicate k .blockEnd ++ [.streamEnd]) := by
  intro s c ts n hc _ hs _ fuel hf
  have ha : s.advance = .ok (.inr (inBlock c i' os' false none
      (.streamEnd :: (List.replicate k .blockEnd ++ ts)) (n + k + 1))) := by
    rw [advance_of_ready hs, dispatch, show (inBlock c i os b none ts n).cursor.peek = none by
      simp [inBlock, Cursor.peek, hc]]
    simp only [closeAll, unwind_of_unwinds hu]
    rfl
  cases fuel with
  | zero => omega
  | succ fuel =>
    rw [run, ha]
    simp [inBlock]

end Lexer

end AuthMap.Yaml
