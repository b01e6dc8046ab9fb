import AuthMap.Proofs.Session
import AuthMap.Proofs.Trim
import AuthMap.Proofs.Yaml.Cursor
import AuthMap.Yaml.Document

/-! A text of blanks alone has no collection in it: its tokens are scalars, and so is its
document. -/

namespace AuthMap

namespace Yaml

open Text (isBlank)

namespace Cursor

variable {c c' : Cursor}

def IsBlank (c : Cursor) : Prop := ∀ ch ∈ c.rest, isBlank ch

theorem IsBlank.steps (h : c.IsBlank) (n : Nat) : (c.steps n).IsBlank := by
  intro ch hch
  rw [rest_steps] at hch
  exact h ch (List.mem_of_mem_drop hch)

theorem IsBlank.skip (h : c.IsBlank) (p : Char → Bool) : (c.skip p).IsBlank := h.steps _

theorem IsBlank.break? (h : c.IsBlank) {b : Char} (hb : c.break? = some (b, c')) :
    c'.IsBlank := by
  unfold Cursor.break? at hb
  split at hb
  · cases hb
    exact h.steps 2
  · split_ifs at hb
    · cases hb
      exact h.steps 1
    · cases hb
      exact h.steps 1
  · cases hb

theorem IsBlank.skipComment (h : c.IsBlank) : c.skipComment.IsBlank := by
  rw [Cursor.skipComment]
  split_ifs
  · exact (h.skip _).skip _
  · exact h.skip _

end Cursor

/-! ### Plain scalars -/

variable {c : Cursor}

theorem isBlank_plainBreaks (h : c.IsBlank) (fuel : Nat) : (plainBreaks fuel c).2.IsBlank := by
  induction fuel generalizing c with
  | zero => exact h
  | succ fuel ih =>
    unfold plainBreaks
    split_ifs
    · exact ih (h.steps 1)
    · split
      · exact h
      · next b c' hb =>
        split_ifs
        · exact h.break? hb
        · exact ih (h.break? hb)

theorem isBlank_plainGap (h : c.IsBlank) : (plainGap c).2.1.IsBlank := by
  have hspaces : c.skipSpaces.IsBlank := h.skip _
  rw [plainGap]
  split
  · exact hspaces
  · next first c₁ hb =>
    have hafter := hspaces.break? hb
    have hbreaks := isBlank_plainBreaks hafter (c₁.rest.length + 1)
    split_ifs
    · exact hafter
    · split
      · next hgap => rwa [hgap] at hbreaks
      · next hgap => rwa [hgap] at hbreaks

theorem isBlank_plainText (flow : Bool) (indent : Int) (fuel : Nat) (h : c.IsBlank)
    (gap : List Char) (crossed : Bool) :
    (plainText flow indent fuel gap c crossed).2.1.IsBlank := by
  induction fuel generalizing c gap crossed with
  | zero => exact h
  | succ fuel ih =>
    unfold plainText
    split_ifs
    · exact h
    · split
      · exact h
      · have hgap := isBlank_plainGap (h.steps (plainRun flow c.rest).length)
        dsimp only
        split_ifs
        · exact hgap
        · exact ih hgap _ _

/-! ### Tokens -/

def Token.isLeaf : Token → Bool
  | .scalar _ _ | .streamEnd | .fault _ => true
  | _ => false

namespace Lexer

/-- Nothing but blanks is left, and no collection is open. -/
structure Blank (s : Lexer) : Prop where
  flow : s.flow = 0
  indent : s.indent = -1
  rest : s.cursor.IsBlank
  tokens : ∀ t ∈ s.tokens, t.isLeaf

variable {s s' : Lexer}

theorem Blank.skipLines (h : s.Blank) (fuel : Nat) : (s.skipLines fuel).Blank := by
  induction fuel generalizing s with
  | zero => exact h
  | succ fuel ih =>
    have hrest := h.rest.skipComment
    rw [Lexer.skipLines]
    split
    · exact { h with rest := hrest }
    · next c hb =>
      have hmoved : (s.moved c).Blank := { h with rest := hrest.break? hb }
      exact ih { hmoved with }

theorem Blank.skipToToken (h : s.Blank) : s.skipToToken.Blank := by
  apply Blank.skipLines
  have hrest : (if s.cursor.index = 0 && s.cursor.peek = some byteOrderMark then s.cursor.step
      else s.cursor).IsBlank := by
    split_ifs
    · exact h.rest.steps 1
    · exact h.rest
  exact { h with rest := hrest }

theorem Blank.renewCandidates (h : s.Blank) (hs : s.renewCandidates = .ok s') : s'.Blank := by
  obtain ⟨candidate, -, hs⟩ := Except.bind_eq_ok.mp hs
  obtain ⟨around, -, hs⟩ := Except.bind_eq_ok.mp hs
  cases hs
  exact { h with }

theorem Blank.dropCandidate (h : s.Blank) (hs : s.dropCandidate = .ok s') : s'.Blank := by
  unfold Lexer.dropCandidate at hs
  split_ifs at hs
  cases hs
  exact { h with }

theorem Blank.unwind (h : s.Blank) {column : Int} (hcolumn : -1 ≤ column) :
    (s.unwind column).Blank := by
  have hindent : s.indent ≤ column := by rw [h.indent]; exact hcolumn
  rw [Lexer.unwind, if_pos h.flow]
  unfold unwindTo
  rw [if_pos hindent]
  exact { h with }

theorem Blank.emit (h : s.Blank) {t : Token} (ht : t.isLeaf) : (s.emit t).Blank :=
  { h with tokens := List.forall_mem_cons.mpr ⟨ht, h.tokens⟩ }

theorem Blank.closeAll (h : s.Blank) (hs : s.closeAll = .ok s') : s'.Blank := by
  obtain ⟨s₁, hdrop, hs⟩ := Except.bind_eq_ok.mp hs
  cases hs
  have hs₁ := (h.unwind (Int.le_refl (-1))).dropCandidate hdrop
  exact { hs₁ with }

theorem Blank.noteCandidate (h : s.Blank) (hs : s.noteCandidate = .ok s') : s'.Blank := by
  unfold Lexer.noteCandidate at hs
  split_ifs at hs
  · obtain ⟨s₁, hdrop, hs⟩ := Except.bind_eq_ok.mp hs
    cases hs
    have hs₁ := h.dropCandidate hdrop
    exact { hs₁ with }
  · cases hs
    exact h

theorem Blank.plain (h : s.Blank) (hs : s.plain = .ok s') : s'.Blank := by
  obtain ⟨s₁, hnote, hs⟩ := Except.bind_eq_ok.mp hs
  have hs₁ := h.noteCandidate hnote
  have hrest := isBlank_plainText (s₁.flow ≠ 0) (s₁.indent + 1) (s₁.cursor.rest.length + 1)
    hs₁.rest [] false
  obtain rfl := Except.ok.inj hs
  exact ⟨hs₁.flow, hs₁.indent, hrest, List.forall_mem_cons.mpr ⟨rfl, hs₁.tokens⟩⟩

/-- Every token but a plain scalar begins with a character that is no blank. -/
theorem next_of_isBlank {ch : Char} (h : isBlank ch) :
    s.next ch = s.plain ∨ s.next ch = .error .malformed := by
  have hn {d : Char} (hd : isBlank d = false) : ch ≠ d := by
    rintro rfl
    rw [h] at hd
    cases hd
  simp only [next, hn (d := '%') rfl, hn (d := '-') rfl, hn (d := '.') rfl, hn (d := '[') rfl,
    hn (d := '{') rfl, hn (d := ']') rfl, hn (d := '}') rfl, hn (d := ',') rfl,
    hn (d := '?') rfl, hn (d := ':') rfl, hn (d := '*') rfl, hn (d := '&') rfl,
    hn (d := '!') rfl, hn (d := '|') rfl, hn (d := '>') rfl, hn (d := '\'') rfl,
    hn (d := '"') rfl, decide_false, Bool.false_and, Bool.false_eq_true, if_false]
  split_ifs
  · exact Or.inl rfl
  · exact Or.inr rfl

theorem Blank.advance (h : s.Blank) {next : Lexer ⊕ Lexer} (hs : s.advance = .ok next) :
    (next.elim id id).Blank := by
  obtain ⟨s₁, hrenew, hs⟩ := Except.bind_eq_ok.mp hs
  have hs₁ := (h.skipToToken.renewCandidates hrenew).unwind
    (show -1 ≤ (s₁.cursor.column : Int) by omega)
  dsimp only at hs
  split at hs
  · obtain ⟨s₂, hclose, hs⟩ := Except.bind_eq_ok.mp hs
    cases hs
    exact (hs₁.closeAll hclose).emit rfl
  · next ch hch =>
    obtain ⟨s₂, hnext, hs⟩ := Except.bind_eq_ok.mp hs
    cases hs
    have hblank : isBlank ch := hs₁.rest ch (List.mem_of_mem_head? hch)
    rcases next_of_isBlank hblank with hplain | hfault
    · exact hs₁.plain (hplain ▸ hnext)
    · rw [hfault] at hnext
      cases hnext

theorem Blank.run (h : s.Blank) (fuel : Nat) : ∀ t ∈ s.run fuel, t.isLeaf := by
  induction fuel generalizing s with
  | zero => exact List.forall_mem_cons.mpr ⟨rfl, h.tokens⟩
  | succ fuel ih =>
    unfold Lexer.run
    split
    · exact List.forall_mem_cons.mpr ⟨rfl, fun t ht => h.tokens t (List.mem_of_mem_drop ht)⟩
    · next hs => exact (h.advance hs).tokens
    · next hs => exact ih (h.advance hs)

end Lexer

theorem isLeaf_tokens {cs : List Char} (h : ∀ ch ∈ cs, isBlank ch) :
    ∀ t ∈ tokens cs, t.isLeaf := by
  have hstart : (Lexer.ofChars cs).Blank := ⟨rfl, rfl, h, by simp [Lexer.ofChars]⟩
  unfold tokens
  split_ifs
  · intro t ht
    exact hstart.run _ t (List.mem_reverse.mp ht)
  · simp [Token.isLeaf]

theorem isLeaf_checkNames {ts : List Token} (h : ∀ t ∈ ts, t.isLeaf) (names : List (List Char))
    (twice : Bool) : ∀ t ∈ checkNames names twice ts, t.isLeaf := by
  fun_induction checkNames names twice ts <;> simp_all [Token.isLeaf]

/-! ### Documents -/

theorem node_of_isLeaf {hs : Handles} {fuel : Nat} {ts : List Token} (h : ∀ t ∈ ts, t.isLeaf)
    {tree : Tree} {rest : List Token} (hn : node hs .other fuel ts = .ok (tree, rest)) :
    ∃ text plain, tree = .scalar {} text plain := by
  cases fuel with
  | zero => cases hn
  | succ fuel =>
    cases ts with
    | nil => cases hn
    | cons t ts =>
      have ht := h t List.mem_cons_self
      cases t with
      | scalar text plain =>
        cases hn
        exact ⟨_, _, rfl⟩
      | streamEnd => cases hn
      | fault f => cases hn
      | _ => cases ht

theorem document_of_isLeaf {ts : List Token} (h : ∀ t ∈ ts, t.isLeaf) {tree : Tree}
    (hd : document ts = .ok (some tree)) : ∃ text plain, tree = .scalar {} text plain := by
  unfold document at hd
  split at hd
  · cases hd
  · cases h _ List.mem_cons_self
  · cases h _ List.mem_cons_self
  · cases h _ List.mem_cons_self
  · cases h _ List.mem_cons_self
  · obtain ⟨⟨tree', rest⟩, hn, hd⟩ := Except.bind_eq_ok.mp hd
    obtain ⟨-, -, hd⟩ := Except.bind_eq_ok.mp hd
    cases hd
    exact node_of_isLeaf h hn

theorem Tag.isContainer_ofText (t : Text) : (Tag.ofText t).isContainer = false := by
  cases ht : t.chars? with
  | none => simp [Tag.ofText, ht, Tag.isContainer]
  | some cs =>
    simp only [Tag.ofText, ht, Option.elim, Tag.ofChars]
    split_ifs <;> rfl

namespace Document

/-- A single scalar is its own document, or there is none. -/
theorem cell_root_of_scalar {tag : Tag} (htag : tag.isContainer = false) {text : Text}
    {d : Document} (hd : ofGraph #[⟨tag, .scalar text⟩] = .ok d) :
    ∃ v, d.cell d.root = .scalar v := by
  let start := Site.ofGraph #[⟨tag, .scalar text⟩]
  obtain ⟨s, hvisit, hd⟩ := Except.bind_eq_ok.mp hd
  obtain ⟨v, rfl⟩ : ∃ v, s = start.set 0 (.scalar v) := by
    have hscalar : start.visit 0 = .error .malformed ∨
        start.visit 0 = (start.scalarAt 0).map fun v => start.set 0 (.scalar v) := by
      cases tag <;> first
        | exact Or.inl rfl
        | exact Or.inr rfl
        | cases htag
    rcases hscalar with hfault | hscalar
    · cases hfault.symm.trans hvisit
    · cases hv : start.scalarAt 0 with
      | error f =>
        rw [hv] at hscalar
        cases hscalar.symm.trans hvisit
      | ok v =>
        rw [hv] at hscalar
        exact ⟨v, (Except.ok.inj (hscalar.symm.trans hvisit)).symm⟩
  cases hd
  exact ⟨v, by simp [start, Site.ofGraph, Site.set, Site.document, Site.finished, cell]⟩

theorem cell_root_of_isBlank {cs : List Char} (h : ∀ ch ∈ cs, isBlank ch) {d : Document}
    (hd : ofChars cs = .ok (some d)) : ∃ v, d.cell d.root = .scalar v := by
  obtain ⟨tree?, htree, hd⟩ := Except.bind_eq_ok.mp hd
  cases tree? with
  | none => cases hd
  | some tree =>
    have hleaf := isLeaf_checkNames (isLeaf_tokens h) [] false
    obtain ⟨text, plain, rfl⟩ := document_of_isLeaf hleaf htree
    obtain ⟨g, hg, hd⟩ := Except.bind_eq_ok.mp hd
    cases hg
    have htag : (if plain then Tag.ofText text else .text).isContainer = false := by
      split_ifs
      · exact Tag.isContainer_ofText text
      · rfl
    obtain ⟨d', hgraph, hd⟩ := Except.map_eq_ok.mp hd
    cases hd
    exact cell_root_of_scalar htag hgraph

end Document

end Yaml

end AuthMap
