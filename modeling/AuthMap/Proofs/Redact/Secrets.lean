import AuthMap.Proofs.Redact.Addresses

/-! Named secrets in a text that goes on. A name does not reach over the place where another one
begins, and a value that has begun in the first part of a text takes the word that follows. -/

namespace AuthMap.Redact

variable {c : Char} {cs xs ys rest name : List Char}

/-! ### Names -/

/-- The letters of other scripts that count as letters of a name. -/
def otherLetters : List Char := ['\u0130', '\u0131', '\u017F', '\u212A']

/-- The small letter that a character counts as. -/
def fold (c : Char) : Char :=
  if c = '\u0130' ∨ c = '\u0131' then 'i'
  else if c = '\u017F' then 's'
  else if c = '\u212A' then 'k'
  else c.toLower

theorem fold_of_notMem (h : c ∉ otherLetters) : fold c = c.toLower := by
  simp only [otherLetters, List.mem_cons, List.not_mem_nil, or_false, not_or] at h
  obtain ⟨hdotted, hdotless, hlong, hkelvin⟩ := h
  rw [fold, if_neg (not_or.mpr ⟨hdotted, hdotless⟩), if_neg hlong, if_neg hkelvin]

theorem isLetter_iff {small : Char} (h : small.toNat < 128) (c : Char) :
    isLetter small c ↔ fold c = small := by
  by_cases hother : c ∈ otherLetters
  · have hlarge : ∀ c ∈ otherLetters, 128 ≤ c.toLower.toNat :=
      List.forall_iff_forall_mem.mp (by decide)
    have hne : c.toLower ≠ small := by
      rintro rfl
      exact Nat.not_lt.mpr (hlarge c hother) h
    simp only [otherLetters, List.mem_cons, List.not_mem_nil, or_false] at hother
    simp only [isLetter, Bool.or_eq_true, Bool.and_eq_true, decide_eq_true_eq]
    unfold fold
    grind
  · rw [fold_of_notMem hother]
    simp only [otherLetters, List.mem_cons, List.not_mem_nil, or_false] at hother
    simp only [isLetter, Bool.or_eq_true, Bool.and_eq_true, decide_eq_true_eq]
    grind

theorem toNat_of_mem_secretNames : ∀ name ∈ secretNames, ∀ c ∈ name, c.toNat < 128 := by
  simp only [← List.forall_iff_forall_mem]
  decide

theorem afterName_eq (h : ∀ c ∈ name, c.toNat < 128) (cs : List Char) :
    afterName name cs = if name <+: cs.map fold then some (cs.drop name.length) else none := by
  induction name generalizing cs with
  | nil => simp [afterName]
  | cons small name ih =>
    rw [List.forall_mem_cons] at h
    cases cs with
    | nil => simp [afterName]
    | cons c cs =>
      simp only [afterName, List.map_cons, List.cons_prefix_cons, ih h.2, List.length_cons,
        List.drop_succ_cons, isLetter_iff h.1, eq_comm]
      by_cases hc : small = fold c <;> simp [hc]

theorem eq_of_isPrefix : ∀ name ∈ secretNames, ∀ name' ∈ secretNames, name <+: name' →
    name = name' := by decide +kernel

/-- No name begins inside of another one and goes on with it. -/
theorem not_prefix_drop : ∀ name ∈ secretNames, ∀ name' ∈ secretNames, ∀ i < name.length, 0 < i →
    ¬ name.drop i <+: name' ∧ ¬ name' <+: name.drop i := by decide +kernel

/-- What follows the name of a secret. -/
def named? (cs : List Char) : Option (List Char) :=
  secretNames.findSome? fun name => afterName name cs

theorem named?_eq_some : named? cs = some rest ↔
    ∃ name ∈ secretNames, name <+: cs.map fold ∧ cs.drop name.length = rest := by
  have hafter (name : List Char) (hname : name ∈ secretNames) (rest : List Char) :
      afterName name cs = some rest ↔ name <+: cs.map fold ∧ cs.drop name.length = rest := by
    rw [afterName_eq (toNat_of_mem_secretNames name hname)]
    by_cases h : name <+: cs.map fold <;> simp [h]
  constructor
  · intro h
    obtain ⟨name, hname, hrest⟩ := List.exists_of_findSome?_eq_some h
    exact ⟨name, hname, (hafter name hname rest).mp hrest⟩
  · rintro ⟨name, hname, hpre, hrest⟩
    cases h : named? cs with
    | none =>
      have hnone := List.findSome?_eq_none_iff.mp h name hname
      rw [(hafter name hname rest).mpr ⟨hpre, hrest⟩] at hnone
      cases hnone
    | some rest' =>
      obtain ⟨name', hname', hrest'⟩ := List.exists_of_findSome?_eq_some h
      obtain ⟨hpre', rfl⟩ := (hafter name' hname' rest').mp hrest'
      obtain rfl : name = name' := by
        rcases List.prefix_or_prefix_of_prefix hpre hpre' with hle | hle
        · exact eq_of_isPrefix name hname name' hname' hle
        · exact (eq_of_isPrefix name' hname' name hname hle).symm
      rw [hrest]

/-- No name of a secret begins in the one text and ends in the other. -/
def Unbroken (ys rest : List Char) : Prop :=
  ∀ name ∈ secretNames, name <+: (ys ++ rest).map fold → name.length ≤ ys.length

theorem named?_append (h : Unbroken ys rest) :
    named? (ys ++ rest) = (named? ys).map (· ++ rest) := by
  ext found
  rw [named?_eq_some, Option.map_eq_some_iff]
  constructor
  · rintro ⟨name, hname, hpre, rfl⟩
    have hlength := h name hname hpre
    refine ⟨ys.drop name.length, named?_eq_some.mpr ⟨name, hname, ?_, rfl⟩, ?_⟩
    · refine List.prefix_of_prefix_length_le hpre ?_ (by simpa using hlength)
      rw [List.map_append]
      exact List.prefix_append ..
    · rw [List.drop_append_of_le_length hlength]
  · rintro ⟨after, hafter, rfl⟩
    obtain ⟨name, hname, hpre, rfl⟩ := named?_eq_some.mp hafter
    have hlength : name.length ≤ ys.length := by simpa using hpre.length_le
    refine ⟨name, hname, ?_, List.drop_append_of_le_length hlength⟩
    rw [List.map_append]
    exact hpre.trans (List.prefix_append ..)

theorem suffix_of_named? (h : named? ys = some rest) : rest <:+ ys := by
  obtain ⟨name, -, -, rfl⟩ := named?_eq_some.mp h
  exact List.drop_suffix ..

theorem length_le_of_notMem {α : Type} {x : α} {xs ys zs : List α} (hx : x ∉ zs)
    (h : zs <+: xs ++ x :: ys) : zs.length ≤ xs.length := by
  refine Nat.le_of_not_lt fun hlt => hx ?_
  have hshort : xs ++ [x] <+: zs := by
    refine List.prefix_of_prefix_length_le ⟨ys, (List.append_cons ..).symm⟩ h ?_
    rw [List.length_append, List.length_singleton]
    exact hlt
  exact hshort.subset (by simp)

/-- A character that is part of no name. -/
def Foreign (c : Char) : Prop := ∀ name ∈ secretNames, fold c ∉ name

instance : DecidablePred Foreign := fun c =>
  inferInstanceAs (Decidable (∀ name ∈ secretNames, fold c ∉ name))

theorem unbroken_of_foreign (h : Foreign c) : Unbroken ys (c :: rest) := by
  intro name hname hpre
  rw [List.map_append] at hpre
  simpa using length_le_of_notMem (h name hname) hpre

theorem unbroken_concat_of_foreign (h : Foreign c) : Unbroken (ys ++ [c]) rest := by
  intro name hname hpre
  rw [List.append_assoc, List.map_append] at hpre
  have hlength := length_le_of_notMem (h name hname) hpre
  simp only [List.length_map] at hlength
  simp only [List.length_append]
  omega

theorem named?_cons_of_foreign (h : Foreign c) (cs : List Char) : named? (c :: cs) = none := by
  have hnone : named? [] = none := by decide
  rw [← List.nil_append (c :: cs), named?_append (unbroken_of_foreign h), hnone, Option.map_none]

theorem fold_of_isBlank (h : Text.isBlank c) : fold c = c := by
  have hother : c ∉ otherLetters := by
    have hnot : ∀ c ∈ otherLetters, Text.isBlank c = false :=
      List.forall_iff_forall_mem.mp (by decide)
    intro hmem
    rw [hnot c hmem] at h
    cases h
  rw [fold_of_notMem hother]
  simp only [Text.isBlank, Bool.or_eq_true, Bool.and_eq_true, decide_eq_true_eq, beq_iff_eq] at h
  unfold Char.toLower
  split
  · next hupper =>
    simp only [ge_iff_le, UInt32.le_iff_toNat_le] at hupper
    change 65 ≤ c.toNat ∧ c.toNat ≤ 90 at hupper
    omega
  · rfl

theorem foreign_of_isBlank (h : Text.isBlank c) : Foreign c := by
  have hnot : ∀ name ∈ secretNames, ∀ c ∈ name, Text.isBlank c = false := by
    simp only [← List.forall_iff_forall_mem]
    decide
  intro name hname hmem
  rw [fold_of_isBlank h] at hmem
  rw [hnot name hname c hmem] at h
  cases h

/-- All of a text is the name of a secret, in any case. -/
def IsName (name : List Char) : Prop := ∃ small ∈ secretNames, afterName small name = some []

theorem isName_iff : IsName name ↔ name.map fold ∈ secretNames := by
  have hwhole (small : List Char) (hsmall : small ∈ secretNames) :
      afterName small name = some [] ↔ name.map fold = small := by
    rw [afterName_eq (toNat_of_mem_secretNames small hsmall)]
    constructor
    · intro h
      split at h
      · next hpre =>
        have hlength := List.drop_eq_nil_iff.mp (Option.some.inj h)
        exact (hpre.eq_of_length_le (by simpa using hlength)).symm
      · cases h
    · rintro rfl
      simp
  constructor
  · rintro ⟨small, hsmall, h⟩
    rwa [(hwhole small hsmall).mp h]
  · intro h
    exact ⟨_, h, (hwhole _ h).mpr rfl⟩

theorem ne_nil_of_isName (h : IsName name) : name ≠ [] := by
  rintro rfl
  revert h
  rw [isName_iff]
  decide

theorem not_foreign_of_mem (h : IsName name) (hc : c ∈ name) : ¬ Foreign c := fun hforeign =>
  hforeign _ (isName_iff.mp h) (List.mem_map_of_mem hc)

theorem unbroken_of_isName (hys : ys ≠ []) (h : IsName name) : Unbroken ys (name ++ rest) := by
  intro name' hname' hpre
  refine Nat.le_of_not_lt fun hlt => ?_
  obtain ⟨hdrop, hdrop'⟩ :=
    not_prefix_drop name' hname' _ (isName_iff.mp h) ys.length hlt (List.length_pos_iff.mpr hys)
  have hrest := hpre.drop ys.length
  rw [List.map_append, List.map_append, List.drop_left' (by simp)] at hrest
  rcases List.prefix_or_prefix_of_prefix hrest (List.prefix_append ..) with hle | hle
  · exact hdrop hle
  · exact hdrop' hle

theorem named?_of_isName (h : IsName name) (rest : List Char) :
    named? (name ++ rest) = some rest := by
  refine named?_eq_some.mpr ⟨_, isName_iff.mp h, ?_, ?_⟩
  · rw [List.map_append]
    exact List.prefix_append ..
  · rw [List.length_map, List.drop_left]

/-! ### Values -/

def isSeparator (c : Char) : Bool := c = '=' || c = ':'

theorem isSeparator_iff : isSeparator c ↔ c = '=' ∨ c = ':' := by simp [isSeparator]

theorem foreign_of_isSeparator (h : isSeparator c) : Foreign c := by
  rcases isSeparator_iff.mp h with rfl | rfl <;> decide

theorem isBlank_of_isSeparator (h : isSeparator c) : Text.isBlank c = false := by
  rcases isSeparator_iff.mp h with rfl | rfl <;> decide

/-- What a value leaves of a text that goes on: nothing if the value goes on as well. -/
def valueRest (cs : List Char) : Option (List Char) :=
  match cs.dropWhile Text.isBlank with
  | c :: cs => if isSeparator c then some (pastWord (cs.dropWhile Text.isBlank)) else none
  | [] => none

theorem afterValue_of_not_separator (h : cs.dropWhile Text.isBlank = c :: ys)
    (hc : isSeparator c = false) : afterValue cs = none := by
  unfold afterValue
  unfold isSeparator at hc
  simp only [h, hc, Bool.false_eq_true, if_false]

theorem afterValue_of_separator (h : cs.dropWhile Text.isBlank = c :: ys)
    (hc : isSeparator c = true) (hys : ys.dropWhile Text.isBlank ≠ []) :
    afterValue cs = some (pastWord (ys.dropWhile Text.isBlank)) := by
  obtain ⟨d, ds, hds⟩ := List.exists_cons_of_ne_nil hys
  unfold afterValue
  unfold isSeparator at hc
  simp only [h, hc, if_true, hds]
  rfl

/-- Where a text goes on with a word, each name in the text ends there, and so does the separator of
each value. -/
structure GoesOn (ys rest : List Char) : Prop where
  unbroken : Unbroken ys rest
  word : ∃ c cs, rest = c :: cs ∧ Text.isBlank c = false ∧
    ∀ after, named? ys = some after → after.dropWhile Text.isBlank = [] → isSeparator c = false

theorem dropWhile_append_cons {isBlank : Char → Bool} (hc : isBlank c = false) (xs cs : List Char) :
    (xs ++ c :: cs).dropWhile isBlank = xs.dropWhile isBlank ++ c :: cs := by
  rw [List.dropWhile_append, List.dropWhile_cons_of_neg (by simp [hc])]
  split
  · next h => rw [List.isEmpty_iff.mp h, List.nil_append]
  · rfl

theorem goesOn_of_foreign (hc : Foreign c) (hblank : Text.isBlank c = false)
    (hsep : isSeparator c = false) (ys cs : List Char) : GoesOn ys (c :: cs) where
  unbroken := unbroken_of_foreign hc
  word := ⟨c, cs, rfl, hblank, fun _ _ _ => hsep⟩

theorem goesOn_zero (ys cs : List Char) : GoesOn ys ('0' :: cs) :=
  goesOn_of_foreign (by decide) (by decide) (by decide) ys cs

theorem goesOn_name (h : IsName name) (hys : ys ≠ []) (rest : List Char) :
    GoesOn ys (name ++ rest) := by
  obtain ⟨c, cs, rfl⟩ := List.exists_cons_of_ne_nil (ne_nil_of_isName h)
  have hc := not_foreign_of_mem h List.mem_cons_self
  refine ⟨unbroken_of_isName hys h, c, cs ++ rest, rfl, ?_, fun _ _ _ => ?_⟩
  · exact Bool.eq_false_iff.mpr (mt foreign_of_isBlank hc)
  · exact Bool.eq_false_iff.mpr (mt foreign_of_isSeparator hc)

theorem afterValue_append {after : List Char} (h : GoesOn ys rest)
    (hafter : named? ys = some after) :
    afterValue (after ++ rest) =
      (valueRest after).map fun left => if left = [] then pastWord rest else left ++ rest := by
  obtain ⟨c, cs, rfl, hc, hsep⟩ := h.word
  have hdrop := dropWhile_append_cons hc after cs
  unfold valueRest
  cases hblank : after.dropWhile Text.isBlank with
  | nil =>
    rw [hblank] at hdrop
    exact afterValue_of_not_separator hdrop (hsep after hafter hblank)
  | cons d ds =>
    rw [hblank, List.cons_append] at hdrop
    cases hd : isSeparator d with
    | false =>
      rw [afterValue_of_not_separator hdrop hd]
      simp [hd]
    | true =>
      have hvalue := dropWhile_append_cons hc ds cs
      rw [afterValue_of_separator hdrop hd (by simp [hvalue]), hvalue, pastWord_append]
      simp [hd]

/-! ### Named secrets -/

theorem secret?_eq (cs : List Char) : secret? cs = ((named? cs).bind afterValue).map fun left =>
    (cs.length - left.length, withoutValue (cs.take (cs.length - left.length))) := by
  unfold secret? named?
  cases (secretNames.findSome? fun name => afterName name cs).bind afterValue <;> rfl

/-- What the value of a name at the beginning leaves of a text that goes on. -/
def ending? (ys : List Char) : Option (List Char) := (named? ys).bind valueRest

theorem secret?_append (h : GoesOn ys rest) :
    secret? (ys ++ rest) = (ending? ys).map fun left =>
      if left = [] then (ys.length + (word rest).length, withoutValue (ys ++ word rest))
      else (ys.length - left.length, withoutValue (ys.take (ys.length - left.length))) := by
  rw [secret?_eq, named?_append h.unbroken, ending?]
  cases hafter : named? ys with
  | none => rfl
  | some after =>
    rw [Option.map_some, Option.bind_some, Option.bind_some, afterValue_append h hafter]
    cases valueRest after with
    | none => rfl
    | some left =>
      rw [Option.map_some, Option.map_some, Option.map_some]
      split
      · have hall : ys ++ rest = ys ++ word rest ++ pastWord rest := by
          rw [List.append_assoc, word_append_pastWord]
        have hlength : (ys ++ rest).length - (pastWord rest).length =
            (ys ++ word rest).length := by
          rw [hall, List.length_append, Nat.add_sub_cancel]
        rw [hlength, hall, List.take_left, List.length_append]
      · have hlength : (ys ++ rest).length - (left ++ rest).length = ys.length - left.length := by
          simp only [List.length_append]
          omega
        rw [hlength, List.take_append_of_le_length (Nat.sub_le ..)]

theorem exists_separator_of_ending? {left : List Char} (h : ending? ys = some left) :
    ∃ c ∈ ys, isSeparator c := by
  obtain ⟨after, hafter, hleft⟩ := Option.bind_eq_some_iff.mp h
  unfold valueRest at hleft
  split at hleft
  · next c cs hcs =>
    split at hleft
    · next hc =>
      refine ⟨c, (suffix_of_named? hafter).subset ?_, hc⟩
      exact (List.dropWhile_suffix _).subset (hcs ▸ List.mem_cons_self)
    · cases hleft
  · cases hleft

/-- What is put in the place of a secret does not depend on its value. -/
theorem withoutValue_append {v : List Char} (hys : ∃ c ∈ ys, isSeparator c) (hv : '=' ∉ v) :
    withoutValue (ys ++ v) = withoutValue ys := by
  obtain ⟨c, hc, hsep⟩ := hys
  have htake (p : Char → Bool) (hp : ∃ c ∈ ys, p c = false) :
      (ys ++ v).takeWhile p = ys.takeWhile p := by
    obtain ⟨d, hd, hpd⟩ := hp
    rw [List.takeWhile_append, if_neg]
    intro hall
    have hsame := (List.takeWhile_prefix p).eq_of_length hall
    have hpassed := List.all_eq_true.mp List.all_takeWhile d (hsame.symm ▸ hd)
    rw [hpd] at hpassed
    cases hpassed
  unfold withoutValue
  by_cases heq : '=' ∈ ys
  · rw [if_pos (by simp [heq]), if_pos (by simp [heq]), htake _ ⟨'=', heq, by decide⟩]
  · have hcolon : c = ':' := (isSeparator_iff.mp hsep).resolve_left fun h => heq (h ▸ hc)
    rw [if_neg (by simp [heq, hv]), if_neg (by simp [heq]), htake _ ⟨':', hcolon ▸ hc, by decide⟩]

/-! ### Searches -/

variable {skip : Nat} {rest' : List Char}

/-- What a search puts in the place of a text does not depend on the word that the text goes on
with, and the search takes none of the word, or all of it. -/
theorem search_congr (h : ∀ ys, ys <:+ xs → ys ≠ [] → GoesOn ys rest)
    (h' : ∀ ys, ys <:+ xs → ys ≠ [] → GoesOn ys rest') (hskip : skip ≤ xs.length) :
    let found := Text.search secret? rest skip xs
    let found' := Text.search secret? rest' skip xs
    (found.2 = 0 ∧ found'.2 = 0 ∨
      found.2 = (word rest).length ∧ found'.2 = (word rest').length) ∧
    ('=' ∉ word rest → '=' ∉ word rest' → found.1 = found'.1) := by
  induction xs generalizing skip with
  | nil =>
    obtain rfl : skip = 0 := by simpa using hskip
    exact ⟨Or.inl ⟨rfl, rfl⟩, fun _ _ => rfl⟩
  | cons c cs ih =>
    replace ih {skip : Nat} (hskip : skip ≤ cs.length) :=
      ih (fun ys hys => h ys (hys.trans (List.suffix_cons c cs)))
        (fun ys hys => h' ys (hys.trans (List.suffix_cons c cs))) hskip
    cases skip with
    | succ skip => exact ih (Nat.le_of_succ_le_succ hskip)
    | zero =>
      have hsecret := secret?_append (h _ List.suffix_rfl (List.cons_ne_nil c cs))
      have hsecret' := secret?_append (h' _ List.suffix_rfl (List.cons_ne_nil c cs))
      cases hending : ending? (c :: cs) with
      | none =>
        rw [hending] at hsecret hsecret'
        obtain ⟨hreach, htext⟩ := ih (Nat.zero_le _)
        rw [Text.search_cons_of_none hsecret, Text.search_cons_of_none hsecret']
        exact ⟨hreach, fun hword hword' => congrArg (c :: ·) (htext hword hword')⟩
      | some left =>
        rw [hending, Option.map_some] at hsecret hsecret'
        by_cases hleft : left = []
        · -- the value goes on, and takes the word
          rw [if_pos hleft] at hsecret hsecret'
          have hover (n : Nat) : cs.length ≤ (c :: cs).length + n - 1 := by
            rw [List.length_cons]
            omega
          have hword (n : Nat) : (c :: cs).length + n - 1 - cs.length = n := by
            rw [List.length_cons]
            omega
          rw [Text.search_of_some hsecret, Text.search_of_some hsecret',
            Text.search_of_le (hover _), Text.search_of_le (hover _), hword, hword]
          refine ⟨Or.inr ⟨rfl, rfl⟩, fun hword hword' => ?_⟩
          have hsep := exists_separator_of_ending? hending
          dsimp only
          rw [withoutValue_append hsep hword, withoutValue_append hsep hword']
        · rw [if_neg hleft] at hsecret hsecret'
          have hshort : (c :: cs).length - left.length - 1 ≤ cs.length := by
            rw [List.length_cons]
            omega
          obtain ⟨hreach, htext⟩ := ih hshort
          rw [Text.search_of_some hsecret, Text.search_of_some hsecret']
          exact ⟨hreach, fun hword hword' => congrArg (_ ++ ·) (htext hword hword')⟩

/-- A text in which no value begins is left as it is. -/
theorem search_of_quiet (h : ∀ ys, ys <:+ xs → ys ≠ [] → GoesOn ys rest ∧ ending? ys = none) :
    Text.search secret? rest 0 xs = (xs, 0) := by
  apply Text.search_of_none
  intro ys hys hne
  obtain ⟨hgoes, hending⟩ := h ys hys hne
  rw [secret?_append hgoes, hending, Option.map_none]

end AuthMap.Redact
