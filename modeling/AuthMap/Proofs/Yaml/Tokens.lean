import AuthMap.Proofs.Yaml.Lexer

/-! The tokens of printed text: one for each scalar, in the style that it is written in, and those
of the lists and records around them. -/

namespace AuthMap.Yaml

/-! ### What the style of a text says of its characters -/

namespace Style

theorem isGraphic_of_isSpecial {c : Char} (h : isSpecial c = false) (hn : c ≠ '\n') :
    isGraphic c := by
  simpa [isSpecial, isGraphic, hn] using h

theorem isPrinted_of_isSpecial {c : Char} (h : isSpecial c = false) : isPrinted c := by
  by_cases hn : c = '\n'
  · simp [isPrinted, hn]
  · simp [isPrinted, isGraphic_of_isSpecial h hn]

theorem of_eq_single {cs : List Char} (h : of cs = .single) :
    (∀ c ∈ cs, isPrinted c) ∧ hasRagged cs = false := by
  have hs : isSingle cs := by
    unfold of at h
    split at h
    · cases h
    · split at h
      · assumption
      · cases h
  simp only [isSingle, Bool.and_eq_true, Bool.not_eq_true', List.any_eq_false] at hs
  exact ⟨fun c hc => isPrinted_of_isSpecial (by simpa using hs.1 c hc), hs.2⟩

theorem isPlain_of_eq {cs : List Char} (h : of cs = .plain) : isPlain cs := by
  unfold of at h
  split at h
  · assumption
  · split at h <;> cases h

theorem isGraphic_of_isPlain {cs : List Char} (h : isPlain cs) : ∀ c ∈ cs, isGraphic c := by
  simp only [isPlain, Bool.and_eq_true, Bool.not_eq_true', List.any_eq_false] at h
  intro c hc
  have hn : c ≠ '\n' := by
    rintro rfl
    have hl := h.1.1.2
    rw [List.contains_iff_mem.mpr hc] at hl
    cases hl
  exact isGraphic_of_isSpecial (by simpa using h.1.1.1.2 c hc) hn

theorem isPhrase_of_isPlain {cs : List Char} (h : isPlain cs) : IsPhrase cs := by
  have hg := isGraphic_of_isPlain h
  simp only [isPlain, Bool.and_eq_true, Bool.not_eq_true', decide_eq_true_eq] at h
  obtain ⟨⟨⟨⟨⟨⟨-, hb⟩, hm⟩, -⟩, -⟩, hfst⟩, hlst⟩ := h
  have hne : cs ≠ [] := by
    rintro rfl
    cases hb
  refine isPhrase_of_hasMark hne hg hm ?_ hfst hlst
  intro hash
  obtain ⟨cs, rfl⟩ := List.head?_eq_some_iff.mp hash
  simp [beginsOther, opensOther] at hb

theorem opensOther_eq_isIndicator (c : Char) : opensOther c = isIndicator c := by
  rw [Bool.eq_iff_iff, opensOther, isIndicator, List.contains_iff_mem, List.contains_iff_mem]
  exact List.Perm.mem_iff (by decide)

end Style

def scalarToken (t : Text) : Token :=
  .scalar t (t.chars?.any fun cs => Style.of cs = .plain)

namespace Lexer

/-! ### Scalars -/

def noted (c : Cursor) (i : Int) (b : Bool) (n : Nat) : Option Candidate :=
  if b then some ⟨n, c.index, c.line, c.column, decide (i = (c.column : Int))⟩ else none

theorem noteCandidate_inBlock (c : Cursor) (i : Int) (os : List Int) (b : Bool) (ts : List Token)
    (n : Nat) :
    (inBlock c i os b none ts n).noteCandidate = .ok (inBlock c i os b (noted c i b n) ts n) := by
  cases b <;> rfl

theorem noted_older {c c' : Cursor} {i : Int} (hi : i < c.column) (hl : c.line ≤ c'.line)
    (b : Bool) (n : Nat) :
    ∀ x ∈ noted c i b n, x.required = false ∧ x.line ≤ c'.line := by
  intro x hx
  cases b with
  | false => simp [noted] at hx
  | true =>
    obtain rfl := Option.some.inj hx
    exact ⟨decide_eq_false (Int.ne_of_lt hi), hl⟩

theorem next_plain {s : Lexer} {ch : Char} (hf : s.flow = 0) (hc : s.cursor.column ≠ 0)
    (h : startsPlain false ch (s.cursor.peekAt 1)) : s.next ch = s.plain := by
  have hstart := h
  simp only [startsPlain, Bool.and_eq_true, Bool.not_eq_true', isIndicator] at h
  obtain ⟨⟨-, hi⟩, hm⟩ := h
  -- the character is none of those that the tests before the last are about
  have hn {d : Char} (hd : d ∈ ",[]\x7b\x7d#&*!|>'\"%@\x60".toList) : ch ≠ d := by
    rintro rfl
    rw [List.contains_iff_mem.mpr hd] at hi
    cases hi
  have hmark {d : Char} (hd : d = '-' ∨ d = '?' ∨ d = ':') :
      ¬ (ch = d ∧ endsWord (s.cursor.peekAt 1)) := by
    rintro ⟨rfl, he⟩
    rcases hd with rfl | rfl | rfl <;> simp [he] at hm
  simp only [next, hf, hc, ne_eq, not_true_eq_false, decide_false, Bool.and_false,
    Bool.false_or, Bool.false_eq_true, if_false, Bool.and_eq_true, decide_eq_true_eq,
    hmark (d := '-') (by simp), hmark (d := '?') (by simp), hmark (d := ':') (by simp),
    hn (d := '[') (by decide), hn (d := '{') (by decide), hn (d := ']') (by decide),
    hn (d := '}') (by decide), hn (d := ',') (by decide), hn (d := '*') (by decide),
    hn (d := '&') (by decide), hn (d := '!') (by decide), hn (d := '|') (by decide),
    hn (d := '>') (by decide), hn (d := '\'') (by decide), hn (d := '"') (by decide),
    Bool.false_and, hstart, if_true]

theorem next_quote {s : Lexer} {double : Bool} :
    s.next (if double then '"' else '\'') = s.quoted double := by
  cases double <;> simp [next]

theorem startsPlain_of_isPlain {ch : Char} {cs : List Char} (h : Style.isPlain (ch :: cs))
    {next : Option Char} (hn : endsWord next → Style.separates cs.head?) :
    startsPlain false ch next := by
  have hv := (Style.isPhrase_of_isPlain h).head_visible (c := ch) rfl
  simp only [Style.isPlain, Bool.and_eq_true, Bool.not_eq_true', decide_eq_true_eq] at h
  have hb : Style.opensOther ch = false ∧ ¬ (Style.isMark ch ∧ Style.separates cs.head?) := by
    have hb := h.1.1.1.1.1.2
    unfold Style.beginsOther at hb
    split at hb
    · cases hb
    · cases hb
    · next he =>
      obtain ⟨rfl, rfl⟩ := List.cons_eq_cons.mp he
      simpa using hb
    · cases hb
  have hi : isIndicator ch = false := Style.opensOther_eq_isIndicator ch ▸ hb.1
  have hend {d : Char} (hd : ch = d) (hm : Style.isMark d) : endsWord next = false := by
    cases he : endsWord next with
    | false => rfl
    | true => exact absurd ⟨hd ▸ hm, hn he⟩ hb.2
  simp only [startsPlain, endsWord_eq_false hv.1 hv.2.1, hi, Bool.not_false, Bool.true_and]
  by_cases hd : ch = '-'
  · simp [hd, hend hd rfl]
  · by_cases hq : ch = '?' ∨ ch = ':'
    · rcases hq with hq | hq <;> simp [hq, hend hq rfl]
    · simp [hd, hq]

theorem head?_plainFrom_of_endsWord {cs : List Char} {r : List Char} (hg : ∀ c ∈ cs, isGraphic c)
    (indent column : Nat) (h : endsWord (plainFrom indent false column cs ++ r).head?) :
    Style.separates cs.head? := by
  cases cs with
  | nil => rfl
  | cons d cs =>
    by_cases hd : d = ' '
    · subst hd
      rfl
    · rw [plainFrom, if_neg hd, List.cons_append, List.head?_cons,
        endsWord_eq_false (hg d List.mem_cons_self) hd] at h
      cases h

theorem dispatch_plain {cs r : List Char} (h : Style.isPlain cs) {indent m : Nat} {i : Int}
    (h₀ : 0 ≤ i) (hi : i < indent) (hm : m ≤ i) (hr : isLineHead r) {c : Cursor}
    (hcol : i < c.column)
    (hc : c.rest = plainFrom indent false c.column cs ++ '\n' :: (List.replicate m ' ' ++ r))
    (os : List Int) (b : Bool) (ts : List Token) (n : Nat) :
    ∃ c', (inBlock c i os b none ts n).dispatch = .ok (.inl (inBlock c' i os true
        (noted c i b n) (.scalar (Text.ofChars cs) true :: ts) (n + 1))) ∧
      c'.rest = r ∧ c'.column = m ∧ c.line < c'.line := by
  -- the scalar is read up to the next line, where a key may begin
  obtain ⟨c', hread, hrest, hend, hline⟩ := plainText_plainFrom (Style.isPhrase_of_isPlain h)
    (show i + 1 ≤ (indent : Int) by omega) (by omega) hr false c.column (c.rest.length + 1) [] c
    false hc (by omega) (Nat.lt_succ_self _)
  refine ⟨c', ?_, hrest, hend, hline⟩
  obtain ⟨ch, cs', rfl⟩ := List.exists_cons_of_ne_nil (Style.isPhrase_of_isPlain h).ne_nil
  have hv := (Style.isPhrase_of_isPlain h).head_visible (c := ch) rfl
  rw [plainFrom, if_neg hv.2.1, List.cons_append] at hc
  have hstart : startsPlain false ch (c.peekAt 1) := by
    refine startsPlain_of_isPlain h fun he => ?_
    refine head?_plainFrom_of_endsWord (r := '\n' :: (List.replicate m ' ' ++ r))
      (fun x hx => ?_) indent (c.column + 1) ?_
    · exact Style.isGraphic_of_isPlain h x (List.mem_cons_of_mem _ hx)
    · rwa [Cursor.peekAt, hc, List.getElem?_cons_succ, ← List.head?_eq_getElem?] at he
  have hpeek : (inBlock c i os b none ts n).cursor.peek = some ch := by
    simp [inBlock, Cursor.peek, hc]
  have hnext : (inBlock c i os b none ts n).next ch = (inBlock c i os b none ts n).plain :=
    next_plain rfl (show c.column ≠ 0 by omega) hstart
  rw [dispatch, hpeek]
  simp only [hnext, plain, noteCandidate_inBlock]
  have hscalar : plainScalar false (i + 1) c = ([] ++ ch :: cs', c', true) := hread
  simp [inBlock, bind, Except.bind, pure, Except.pure, hscalar, moved, emit, allowKey]

theorem dispatch_quoted {double : Bool} {cs r : List Char} {t : Text}
    (h : QuotedText double cs t r) {c : Cursor}
    (hc : c.rest = (if double then '"' else '\'') :: cs) (i : Int) (os : List Int) (b : Bool)
    (ts : List Token) (n : Nat) :
    ∃ c', (inBlock c i os b none ts n).dispatch = .ok (.inl (inBlock c' i os false
        (noted c i b n) (.scalar t false :: ts) (n + 1))) ∧
      c'.rest = r ∧ c.line ≤ c'.line := by
  obtain ⟨c', hread, hrest, hline⟩ := quotedText_of_quotedText h
    (c := c.step) (by simp [Cursor.rest_step, hc]) (c.rest.length + 1)
    (by rw [hc, List.length_cons]; omega)
  refine ⟨c', ?_, hrest, Nat.le_trans (Cursor.line_le_step c) hline⟩
  have hpeek : (inBlock c i os b none ts n).cursor.peek = some (if double then '"' else '\'') := by
    simp [inBlock, Cursor.peek, hc]
  rw [dispatch, hpeek]
  simp only [next_quote, quoted, leaf, noteCandidate_inBlock]
  have hscalar : quotedScalar double c = .ok (t, c') := hread
  simp [inBlock, bind, Except.bind, pure, Except.pure, hscalar, moved, emit, allowKey, Except.map]

section

variable {r : List Char} {indent m column k : Nat} {i i' : Int} {os os' : List Int} {b : Bool}
  {out : List Token}

theorem lexes_plain {cs : List Char} (h : Style.isPlain cs) (h₀ : 0 ≤ i) (hi : i < indent)
    (hcol : i < column) (hm : m ≤ i) (hr : isLineHead r) (hu : Unwinds (m : Int) i os k i' os')
    (hout : Lexes r m i' os' true out) :
    Lexes (plainFrom indent false column cs ++ '\n' :: (List.replicate m ' ' ++ r)) column i os b
      (.scalar (Text.ofChars cs) true :: (List.replicate k .blockEnd ++ out)) := by
  let token : Token := .scalar (Text.ofChars cs) true
  refine lexes_of_dispatch (token :: List.replicate k .blockEnd) hout
    fun c ts n hc hcolumn => ?_
  subst hcolumn
  obtain ⟨c', hd, hrest, hend, hline⟩ := dispatch_plain h h₀ hi hm hr hcol hc os b ts n
  have hready := ready_blank (m := 0) true (token :: ts) (n + 1)
    (show c'.rest = _ by rw [hrest]; rfl) (fun ch hch => head_of_isLineHead hr hch)
    (fun x hx => ⟨(noted_older hcol (Nat.le_refl _) b n x hx).1,
      Nat.lt_of_le_of_lt (noted_older hcol (Nat.le_refl _) b n x hx).2 hline⟩)
    (by rw [hend]; exact hu)
  refine ⟨_, ⟨r, c'.index + 0, c'.line, c'.column + 0⟩, n + 1 + k, hd, ?_,
    Nat.le_of_eq (congrArg List.length hrest.symm), rfl, hend,
    hready.trans ?_⟩
  · simp only [inBlock, hrest, List.length_append, List.length_cons]
    omega
  · simp [token]

theorem lexes_quoted (double : Bool) {cs : List Char} {t : Text}
    (h : QuotedText double cs t ('\n' :: (List.replicate m ' ' ++ r)))
    (hcol : i < column) (hr : isLineHead r) (hu : Unwinds (m : Int) i os k i' os')
    (hout : Lexes r m i' os' true out) :
    Lexes ((if double then '"' else '\'') :: cs) column i os b
      (.scalar t false :: (List.replicate k .blockEnd ++ out)) := by
  let token : Token := .scalar t false
  refine lexes_of_dispatch (token :: List.replicate k .blockEnd) hout
    fun c ts n hc hcolumn => ?_
  subst hcolumn
  obtain ⟨c', hd, hrest, hline⟩ := dispatch_quoted h hc i os b ts n
  have hready := ready_line false (token :: ts) (n + 1) hrest
    (fun ch hch => head_of_isLineHead hr hch) (noted_older hcol hline b n) hu
  refine ⟨_, ⟨r, c'.index + 1 + m, c'.line + 1, m⟩, n + 1 + k, hd, ?_, ?_, rfl, rfl,
    hready.trans ?_⟩
  · simp only [inBlock, hrest]
    exact Nat.lt_succ_of_lt h.length_lt
  · simp only [inBlock, hrest, List.length_append, List.length_cons]
    omega
  · simp [token]

/-- A scalar that ends its line, before a line that belongs to a collection around it. -/
theorem lexes_scalar (t : Text) (h₀ : 0 ≤ i) (hi : i < indent) (hw : indent < lineWidth)
    (hcol : i < column) (hm : m ≤ i) (hr : isLineHead r) (hu : Unwinds (m : Int) i os k i' os')
    (hout : Lexes r m i' os' true out) :
    Lexes (scalarText indent column t ++ '\n' :: (List.replicate m ' ' ++ r)) column i os b
      (scalarToken t :: (List.replicate k .blockEnd ++ out)) := by
  have hne : indent ≠ 0 := by omega
  have hdouble : Lexes (doubleText indent column t ++ '\n' :: (List.replicate m ' ' ++ r)) column
      i os b (.scalar t false :: (List.replicate k .blockEnd ++ out)) := by
    rw [doubleText, List.cons_append, List.append_assoc]
    exact lexes_quoted true (quotedText_doubleFrom hne hw true true
      (column + 1) t _) hcol hr hu hout
  unfold scalarText scalarToken
  cases ht : t.chars? with
  | none => exact hdouble
  | some cs =>
    obtain rfl := Text.ofChars_of_chars? ht
    cases hs : Style.of cs with
    | plain =>
      simp only [hs, Option.any_some, decide_true]
      exact lexes_plain (Style.isPlain_of_eq hs) h₀ hi hcol hm hr hu hout
    | double =>
      simp only [hs, Option.any_some]
      exact hdouble
    | single =>
      obtain ⟨hp, hragged⟩ := Style.of_eq_single hs
      simp only [hs, Option.any_some, List.cons_append, List.append_assoc]
      exact lexes_quoted false (quotedText_singleFrom hne hp hragged
        (by simp) none (column + 1) (by simp)) hcol hr hu hout

end

/-! ### Marks of lists and records -/

/-- A block collection at a column, which begins with its token or is open there. -/
inductive Opens (t : Token) (column : Nat) : Int → List Int → List Token → List Int → Prop
  | fresh {i : Int} {os : List Int} : i < column → Opens t column i os [t] (i :: os)
  | same {os : List Int} : Opens t column column os [] os

theorem Opens.le {t : Token} {column : Nat} {i : Int} {os os' : List Int} {front : List Token}
    (h : Opens t column i os front os') : i ≤ column := by
  cases h with
  | fresh hi => exact Int.le_of_lt hi
  | same => exact Int.le_refl _

theorem Opens.reverse {t : Token} {column : Nat} {i : Int} {os os' : List Int}
    {front : List Token} (h : Opens t column i os front os') : front.reverse = front := by
  cases h <;> rfl

theorem beginBlock_of_opens {t : Token} {c : Cursor} {i : Int} {os os' : List Int}
    {front : List Token} (h : Opens t c.column i os front os') (b : Bool)
    (ca : Option Candidate) (ts : List Token) (n : Nat) :
    (inBlock c i os b ca ts n).beginBlock t =
      inBlock c c.column os' b ca (front ++ ts) (n + front.length) := by
  unfold beginBlock
  cases h with
  | fresh hi => exact if_pos (by simp [inBlock, deepens, hi])
  | same => exact if_neg (by simp [inBlock, deepens])

theorem dispatch_dash {c : Cursor} {r : List Char} (hc : c.rest = '-' :: ' ' :: r) {i : Int}
    {os os' : List Int} {front : List Token} (ho : Opens .blockSequence c.column i os front os')
    (ts : List Token) (n : Nat) :
    (inBlock c i os true none ts n).dispatch = .ok (.inl (inBlock c.step c.column os' true none
      (.blockEntry :: (front ++ ts)) (n + front.length + 1))) := by
  have hpeek : (inBlock c i os true none ts n).cursor.peek = some '-' := by
    simp [inBlock, Cursor.peek, hc]
  have hsep : c.atSeparator = false := by simp [Cursor.atSeparator, hc]
  have hafter : c.peekAt 1 = some ' ' := by simp [Cursor.peekAt, hc]
  have hnext : (inBlock c i os true none ts n).next '-' = (inBlock c i os true none ts n).dash := by
    simp [next, inBlock, hsep, hafter, endsWord]
  rw [dispatch, hpeek]
  simp only [hnext, dash, beginBlock_of_opens ho]
  rfl

section

variable {r : List Char} {column : Nat} {i : Int} {os os' : List Int} {front out : List Token}

theorem lexes_dash (hr : ∀ ch ∈ r.head?, isGraphic ch ∧ ch ≠ ' ' ∧ ch ≠ '#')
    (ho : Opens .blockSequence column i os front os')
    (h : Lexes r (column + 2) column os' true out) :
    Lexes ('-' :: ' ' :: r) column i os true (front ++ .blockEntry :: out) := by
  rw [List.append_cons]
  refine lexes_of_dispatch _ h fun c ts n hc hcolumn => ?_
  subst hcolumn
  have hstep := Cursor.step_graphic hc (by decide)
  have hready := ready_blank (m := 1) true (.blockEntry :: (front ++ ts))
    (n + front.length + 1) (show c.step.rest = List.replicate 1 ' ' ++ r by rw [hstep]; rfl)
    hr (show ∀ x ∈ none, _ by simp) (.stay c.column os' (by rw [hstep]; simp; omega))
  refine ⟨_, ⟨r, c.step.index + 1, c.step.line, c.step.column + 1⟩, n + front.length + 1 + 0,
    dispatch_dash hc ho ts n, ?_, ?_, rfl, ?_, hready.trans ?_⟩
  · simp [inBlock, hstep]
  · simp [inBlock, hstep]
  · simp [hstep]
  · simp [ho.reverse]

end

theorem plainRun_key {key after : List Char} (hk : ∀ c ∈ key, c.isLower)
    (ha : endsWord after.head?) : plainRun false (key ++ ':' :: after) = key := by
  induction key with
  | nil => simp [plainRun, pausesPlain, ha]
  | cons c key ih =>
    have hc := hk c List.mem_cons_self
    have hs : c ≠ ' ' := by
      rintro rfl
      exact absurd hc (by decide)
    have hcolon : c ≠ ':' := by
      rintro rfl
      exact absurd hc (by decide)
    have hp : pausesPlain false c (key ++ ':' :: after).head? = false := by
      simp [pausesPlain, endsWord_eq_false (isGraphic_of_isLower hc) hs, hcolon]
    rw [List.cons_append, plainRun, hp, if_neg (by decide),
      ih fun x hx => hk x (List.mem_cons_of_mem _ hx)]

theorem startsPlain_of_isLower {c : Char} (h : c.isLower) (next : Option Char) :
    startsPlain false c next := by
  have hn {d : Char} (hd : d.isLower = false) : c ≠ d := by
    rintro rfl
    rw [h] at hd
    cases hd
  have hi : isIndicator c = false := by
    cases hi : isIndicator c with
    | false => rfl
    | true =>
      have hm := List.contains_iff_mem.mp hi
      have hl : (",[]\x7b\x7d#&*!|>'\"%@\x60".toList.all fun d => !d.isLower) = true := rfl
      have hlower : c.isLower = false := by simpa using List.all_eq_true.mp hl c hm
      exact absurd rfl (hn hlower)
  simp [startsPlain, endsWord_eq_false (isGraphic_of_isLower h) (hn (by decide)), hi,
    hn (d := '-') (by decide), hn (d := '?') (by decide), hn (d := ':') (by decide)]

/-- The name of a field, up to its colon; it may be a key as long as it is short. -/
theorem dispatch_name {key after : List Char} (hk : ∀ c ∈ key, c.isLower) (hne : key ≠ [])
    (ha : endsWord after.head?) {c : Cursor} (hc : c.rest = key ++ ':' :: after) {i : Int}
    (hcol : c.column ≠ 0) (os : List Int) (ts : List Token) (n : Nat) :
    (inBlock c i os true none ts n).dispatch = .ok (.inl (inBlock
      ⟨':' :: after, c.index + key.length, c.line, c.column + key.length⟩ i os false
        (noted c i true n) (.scalar (Text.ofChars key) true :: ts) (n + 1))) := by
  have hg : ∀ ch ∈ key, isGraphic ch := fun ch hch => isGraphic_of_isLower (hk ch hch)
  have hsteps := Cursor.steps_graphic hc hg
  have hgap := plainGap_spaces (n := 0) (r := ':' :: after)
    (c := ⟨':' :: after, c.index + key.length, c.line, c.column + key.length⟩) rfl (by simp; decide)
  obtain ⟨ch, key', rfl⟩ := List.exists_cons_of_ne_nil hne
  have hlower := hk ch List.mem_cons_self
  have hash : c.peek ≠ some '#' := by
    intro hp
    rw [Cursor.peek, hc] at hp
    obtain rfl : ch = '#' := by simpa using hp
    exact absurd hlower (by decide)
  have hscalar : plainScalar false (i + 1) c = (ch :: key',
      ⟨':' :: after, c.index + (ch :: key').length, c.line, c.column + (ch :: key').length⟩,
      false) := by
    rw [plainScalar, plainText, if_neg hash, hc, plainRun_key hk ha]
    simp only [hsteps, hgap]
    rfl
  have hpeek : (inBlock c i os true none ts n).cursor.peek = some ch := by
    simp [inBlock, Cursor.peek, hc]
  rw [dispatch, hpeek]
  simp only [next_plain (s := inBlock c i os true none ts n) rfl hcol
    (startsPlain_of_isLower hlower _), plain, noteCandidate_inBlock]
  simp [inBlock, bind, Except.bind, pure, Except.pure, hscalar, moved, emit, allowKey]

/-- The colon behind the name of a field: its key, and the mapping that it begins, come in before
the name. -/
theorem advance_colon {c : Cursor} {i : Int} {os os' : List Int} {front : List Token}
    (ho : Opens .blockMapping c.column i os front os') {len : Nat} (hlen : len ≤ 1024)
    {after : List Char} (ha : endsWord after.head?) (token : Token) (ts : List Token) (n : Nat) :
    (inBlock ⟨':' :: after, c.index + len, c.line, c.column + len⟩ i os false (noted c i true n)
      (token :: ts) (n + 1)).advance =
        .ok (.inl (inBlock ⟨after, c.index + len + 1, c.line, c.column + len + 1⟩ c.column os' false
          none (.value :: token :: .key :: (front ++ ts)) (n + 3 + front.length))) := by
  let c' : Cursor := ⟨':' :: after, c.index + len, c.line, c.column + len⟩
  let s := inBlock c' i os false (noted c i true n) (token :: ts) (n + 1)
  have hskip : s.skipToToken = s := skipToToken_blank (m := 0) rfl (by simp; decide)
  -- the candidate is in the same line and not too far away
  have hlapsed : lapsed c' ⟨n, c.index, c.line, c.column, decide (i = (c.column : Int))⟩ =
      false := by
    simp [lapsed, c']
    omega
  have hrenew : s.renewCandidates = .ok s := by
    simp only [renewCandidates, s, inBlock, noted, if_true, renew, hlapsed]
    rfl
  have hunwind : s.unwind c'.column = s :=
    unwind_of_unwinds (.stay _ _ (Int.le_trans ho.le (Int.ofNat_le.mpr (Nat.le_add_right _ _))))
      _ _ _ _ _
  have hready : s.ready = .ok s := by
    rw [ready, hskip, hrenew]
    exact congrArg Except.ok hunwind
  have hnext : s.next ':' = s.colon := by
    have hafter : endsWord (s.cursor.peekAt 1) := by
      rwa [Cursor.peekAt, show s.cursor.rest[1]? = after.head? from List.head?_eq_getElem?.symm]
    simp [next, hafter]
  have hstep := Cursor.step_graphic (c := c') rfl (by decide)
  rw [advance_of_ready hready, dispatch, show s.cursor.peek = some ':' from rfl]
  simp only [hnext]
  have hlater : n + 1 + 1 - n = 2 := by omega
  cases ho with
  | fresh hi =>
    simp [colon, s, c', inBlock, noted, insertAt, deepens, hi, indentTo, allowKey, mark, emit,
      moved, Cursor.steps, hstep, bind, Except.bind, pure, Except.pure, hlater]
  | same =>
    simp [colon, s, c', inBlock, noted, insertAt, deepens, allowKey, mark, emit, moved,
      Cursor.steps, hstep, bind, Except.bind, pure, Except.pure]

section

variable {key r : List Char} {column column' : Nat} {i : Int} {os os' : List Int} {b : Bool}
  {front out : List Token}

theorem lexes_key {after : List Char} (hk : ∀ c ∈ key, c.isLower) (hne : key ≠ [])
    (hlen : key.length ≤ 1024) (ha : endsWord after.head?) (hcol : column ≠ 0)
    (ho : Opens .blockMapping column i os front os') (hr : r.length ≤ after.length)
    (hnext : ∀ c ts n, c.rest = after → c.column = column + key.length + 1 → ∃ c' n',
      (inBlock c column os' false none ts n).ready = .ok (inBlock c' column os' b none ts n') ∧
        c'.rest = r ∧ c'.column = column')
    (h : Lexes r column' column os' b out) :
    Lexes (key ++ ':' :: after) column i os true
      (front ++ .key :: .scalar (Text.ofChars key) true :: .value :: out) := by
  intro s c ts n hc hcolumn hs hl fuel hf
  subst hcolumn
  let token : Token := .scalar (Text.ofChars key) true
  obtain ⟨c', n', hready, hc', hcol'⟩ := hnext
    ⟨after, c.index + key.length + 1, c.line, c.column + key.length + 1⟩
    (.value :: token :: .key :: (front ++ ts)) (n + 3 + front.length) rfl rfl
  have hout : out.reverse ++ (.value :: token :: .key :: (front ++ ts)) =
      (front ++ .key :: token :: .value :: out).reverse ++ ts := by
    simp [ho.reverse]
  rw [List.length_append, List.length_cons] at hl
  rw [← hout]
  refine run_of_advance ((advance_of_ready hs).trans (dispatch_name hk hne ha hc hcol os ts n))
    ?_ ?_ fuel hf
  · have hpos := List.length_pos_iff.mpr hne
    simp only [inBlock, List.length_cons]
    omega
  · exact run_of_advance (advance_colon ho hlen ha token ts n) (by simp [inBlock])
      (h _ c' _ n' hc' hcol' hready hr)

theorem lexes_key_blank (hk : ∀ c ∈ key, c.isLower) (hne : key ≠ []) (hlen : key.length ≤ 1024)
    (hcol : column ≠ 0) (ho : Opens .blockMapping column i os front os')
    (hr : ∀ ch ∈ r.head?, isGraphic ch ∧ ch ≠ ' ' ∧ ch ≠ '#')
    (h : Lexes r (column + key.length + 2) column os' false out) :
    Lexes (key ++ ':' :: ' ' :: r) column i os true
      (front ++ .key :: .scalar (Text.ofChars key) true :: .value :: out) := by
  refine lexes_key hk hne hlen rfl hcol ho (Nat.le_succ _) (fun c ts n hc hcolumn => ?_) h
  have hready := ready_blank (m := 1) false ts n hc hr (show ∀ x ∈ none, _ by simp)
    (.stay column os' (by omega))
  exact ⟨⟨r, c.index + 1, c.line, c.column + 1⟩, n + 0, hready, rfl, by simp [hcolumn]⟩

theorem lexes_key_line {m : Nat} (hk : ∀ c ∈ key, c.isLower) (hne : key ≠ [])
    (hlen : key.length ≤ 1024) (hcol : column ≠ 0) (ho : Opens .blockMapping column i os front os')
    (hr : ∀ ch ∈ r.head?, isGraphic ch ∧ ch ≠ ' ' ∧ ch ≠ '#') (hm : column ≤ m)
    (h : Lexes r m column os' true out) :
    Lexes (key ++ ':' :: '\n' :: (List.replicate m ' ' ++ r)) column i os true
      (front ++ .key :: .scalar (Text.ofChars key) true :: .value :: out) := by
  refine lexes_key hk hne hlen rfl hcol ho (by simp; omega) (fun c ts n hc _ => ?_) h
  have hready := ready_line false ts n hc hr (show ∀ x ∈ none, _ by simp)
    (.stay column os' (by omega))
  exact ⟨⟨r, c.index + 1 + m, c.line + 1, m⟩, n + 0, hready, rfl, rfl⟩

end

theorem advance_empty {c : Cursor} {after : List Char} (hc : c.rest = '[' :: ']' :: after) (i : Int)
    (os : List Int) (ts : List Token) (n : Nat) :
    ∃ s, (inBlock c i os false none ts n).dispatch = .ok (.inl s) ∧
      s.cursor.rest = ']' :: after ∧
        s.advance = .ok (.inl (inBlock ⟨after, c.index + 2, c.line, c.column + 2⟩ i os false none
          (.flowSequenceEnd :: .flowSequence :: ts) (n + 2))) := by
  let c' : Cursor := ⟨']' :: after, c.index + 1, c.line, c.column + 1⟩
  have hstep : c.step = c' := Cursor.step_graphic hc (by decide)
  have hstep' := Cursor.step_graphic (c := c') rfl (by decide)
  let s : Lexer := { inBlock c' i os true none (.flowSequence :: ts) (n + 1) with
    flow := 1, around := [none] }
  have hready : s.ready = .ok s := by
    have hskip : s.skipToToken = s := skipToToken_blank (m := 0) rfl (by simp; decide)
    rw [ready, hskip]
    rfl
  refine ⟨s, ?_, rfl, ?_⟩
  · rw [dispatch, show (inBlock c i os false none ts n).cursor.peek = some '[' by
      simp [inBlock, Cursor.peek, hc]]
    simp [next, openFlow, noteCandidate, inBlock, mark, emit, moved, Cursor.steps, hstep, bind,
      Except.bind, pure, Except.pure, s]
  · rw [advance_of_ready hready, dispatch, show s.cursor.peek = some ']' from rfl]
    simp [next, closeFlow, dropCandidate, inBlock, mark, emit, moved, Cursor.steps, hstep', bind,
      Except.bind, pure, Except.pure, s, c']

theorem lexes_empty {r : List Char} {m column k : Nat} {i i' : Int} {os os' : List Int}
    {out : List Token} (hr : isLineHead r) (hu : Unwinds (m : Int) i os k i' os')
    (h : Lexes r m i' os' true out) :
    Lexes ('[' :: ']' :: '\n' :: (List.replicate m ' ' ++ r)) column i os false
      (.flowSequence :: .flowSequenceEnd :: (List.replicate k .blockEnd ++ out)) := by
  intro s c ts n hc _ hs hl fuel hf
  -- two tokens and the end of the line, so two turns of the lexer
  obtain ⟨s', hd, hrest, ha⟩ := advance_empty hc i os ts n
  have hready := ready_line (c := ⟨'\n' :: (List.replicate m ' ' ++ r), c.index + 2, c.line,
    c.column + 2⟩) false (.flowSequenceEnd :: .flowSequence :: ts) (n + 2) rfl
    (fun ch hch => head_of_isLineHead hr hch) (show ∀ x ∈ none, _ by simp) hu
  have hout :
      out.reverse ++ (List.replicate k .blockEnd ++ .flowSequenceEnd :: .flowSequence :: ts) =
        (.flowSequence :: .flowSequenceEnd :: (List.replicate k .blockEnd ++ out)).reverse ++
          ts := by
    simp
  rw [← hout]
  refine run_of_advance ((advance_of_ready hs).trans hd) (Nat.lt_of_lt_of_le ?_ hl) ?_ fuel hf
  · simp [hrest]
  · refine run_of_advance ha (by simp [hrest, inBlock]) ?_
    exact h _ ⟨r, c.index + 2 + 1 + m, c.line + 1, m⟩ _ _ rfl rfl hready
      (by simp [inBlock]; omega)

end Lexer

end AuthMap.Yaml
