import AuthMap.Proofs.Redact.Keys

/-! Marked texts. After a redaction the value of each secret is a mark, no credentials and no further
secrets come up around the marks, and a redaction of what is left, or of its beginning, changes none
of it. -/

namespace AuthMap.Redact

open Text (replaceFrom isBlank)

variable {c : Char} {cs xs ys rest value : List Char}

/-- The values of the secrets that are found one behind the other from the left. -/
inductive Leftmost : List Char → List Char → Prop where
  | here {cs value rest : List Char} (h : SecretAt cs value rest) : Leftmost cs value
  | behind {cs other rest value : List Char} (h : SecretAt cs other rest)
    (hrest : Leftmost rest value) : Leftmost cs value
  | later {c : Char} {cs value : List Char} (h : ∀ other rest, ¬ SecretAt (c :: cs) other rest)
    (hcs : Leftmost cs value) : Leftmost (c :: cs) value

/-! ### Where two texts part -/

/-- A name is in sight, and nothing stands between it and the separator to come but blanks or
another separator. -/
def Opens (ys : List Char) : Prop :=
  ∃ after, named? ys = some after ∧ ∀ c ∈ (after.dropWhile isBlank).head?, isSeparator c

/-- Whether a secret begins does not depend on what stands behind a separator, as long as there is a
word. -/
theorem secret?_eq_none_iff_not_opens (hc : isSeparator c) (hcs : cs.dropWhile isBlank ≠ []) :
    secret? (ys ++ c :: cs) = none ↔ ¬ Opens ys := by
  have hblank := isBlank_of_isSeparator hc
  rw [secret?_eq, named?_append (unbroken_of_foreign (foreign_of_isSeparator hc)), Opens,
    Option.map_eq_none_iff]
  cases hafter : named? ys with
  | none => simp
  | some after =>
    have hdrop := dropWhile_append_cons hblank after cs
    simp only [Option.map_some, Option.bind_some, Option.some.injEq, exists_eq_left']
    cases hends : after.dropWhile isBlank with
    | nil =>
      rw [hends, List.nil_append] at hdrop
      rw [afterValue_of_separator hdrop hc hcs]
      simp
    | cons d ds =>
      rw [hends, List.cons_append] at hdrop
      cases hd : isSeparator d with
      | false =>
        rw [afterValue_of_not_separator hdrop hd]
        simp [hd]
      | true =>
        have hne : (ds ++ c :: cs).dropWhile isBlank ≠ [] := by
          simp [dropWhile_append_cons hblank]
        rw [afterValue_of_separator hdrop hd hne]
        simp [hd]

/-- Two texts that are the same up to a separator, with a word behind it. -/
inductive Parts : List Char → List Char → Prop where
  | intro {xs ys ys' : List Char} {c c' : Char} (hc : isSeparator c) (hc' : isSeparator c')
    (hys : ys.dropWhile isBlank ≠ []) (hys' : ys'.dropWhile isBlank ≠ [])
    (hat : '@' ∉ word (c' :: ys')) : Parts (xs ++ c :: ys) (xs ++ c' :: ys')

theorem apart_replaceFrom (h : Apart rest) : Apart (replaceFrom secret? 0 rest) := by
  cases rest with
  | nil => exact h
  | cons c cs =>
    have hnone : secret? (c :: cs) = none := by
      rw [secret?_eq, named?_cons_of_foreign (foreign_of_isBlank (h c rfl))]
      rfl
    rw [Text.replaceFrom_of_none hnone]
    exact h

namespace Key

variable (k : Key)

/-- A key with its value becomes a tidy key with a mark. -/
theorem exists_replaceFrom (hvalue : IsWord value) (hrest : Apart rest) :
    ∃ k' : Key, k'.Tidy ∧ k'.name = k.name ∧ k'.gap = k.gap ∧
      replaceFrom secret? 0 (k.text ++ value ++ rest) =
        k'.text ++ mark ++ replaceFrom secret? 0 rest := by
  obtain ⟨k', htidy, hname, hgap, hwithout⟩ := k.exists_tidy value
  refine ⟨k', htidy, hname, hgap, ?_⟩
  rw [Text.replaceFrom_append_of_some (by simp [k.text_ne_nil]) (k.secret?_append hvalue hrest),
    hwithout]

/-- A tidy key keeps its text, and its value becomes a mark. -/
theorem replaceFrom_of_tidy (h : k.Tidy) (hvalue : IsWord value) (heq : '=' ∉ value)
    (hrest : Apart rest) : replaceFrom secret? 0 (k.text ++ value ++ rest) =
      k.text ++ mark ++ replaceFrom secret? 0 rest := by
  rw [Text.replaceFrom_append_of_some (by simp [k.text_ne_nil]) (k.secret?_append hvalue hrest),
    k.withoutValue_of_tidy h heq]

theorem at_notMem_mark (h : k.Tidy) : '@' ∉ k.text ++ mark := by
  have hend : ∀ c ∈ k.separator :: (k.pause ++ mark), c ≠ '@' := by
    rcases h with ⟨hsep, hpause⟩ | ⟨hsep, hpause⟩
    all_goals
      rw [hsep, hpause]
      exact List.forall_iff_forall_mem.mp (by decide)
  rw [text_append, List.mem_append, List.mem_append, not_or, not_or]
  refine ⟨⟨fun hc => ?_, fun hc => ?_⟩, fun hc => hend _ hc rfl⟩
  · exact not_foreign_of_mem k.isName hc (by decide)
  · exact absurd (k.gap_blank _ hc) (by decide)

end Key

/-- A redaction leaves a text as it is, or up to the first separator behind a name. -/
theorem replaceFrom_secret_cases (cs : List Char) :
    replaceFrom secret? 0 cs = cs ∨ Parts cs (replaceFrom secret? 0 cs) := by
  induction cs using secrets_induction with
  | nil => exact Or.inl rfl
  | pass c cs h ih =>
    rw [Text.replaceFrom_of_none h]
    refine ih.imp (congrArg (c :: ·)) fun hparts => ?_
    generalize replaceFrom secret? 0 cs = cs' at hparts
    obtain @⟨xs, ys, ys', d, d', hd, hd', hys, hys', hat⟩ := hparts
    rw [← List.cons_append, ← List.cons_append]
    exact .intro hd hd' hys hys' hat
  | found k value rest hvalue hrest ih =>
    obtain ⟨k', htidy, hname, hgap, heq⟩ := k.exists_replaceFrom hvalue hrest
    have hword {value : List Char} (k : Key) (hvalue : IsWord value) (rest : List Char) :
        (k.pause ++ (value ++ rest)).dropWhile isBlank ≠ [] := by
      simp [hvalue.dropWhile_append k.pause_blank, hvalue.ne_nil]
    have hat : '@' ∉ word (k'.separator :: (k'.pause ++ (mark ++ replaceFrom secret? 0 rest))) := by
      have hmark := k'.at_notMem_mark htidy
      rw [k'.text_append, List.mem_append, not_or] at hmark
      rw [← List.append_assoc, ← List.cons_append]
      exact notMem_word_append hmark.2 (apart_replaceFrom hrest)
    rw [heq, List.append_assoc, List.append_assoc, k.text_append, k'.text_append, hname, hgap]
    exact Or.inr (.intro k.isSeparator k'.isSeparator (hword k hvalue rest) (hword k' isWord_mark _)
      hat)

/-! ### Marked texts -/

/-- No secret begins but at a tidy key with a mark. -/
inductive Marked : List Char → Prop where
  | nil : Marked []
  | pass {c : Char} {cs : List Char} (h : secret? (c :: cs) = none) (hcs : Marked cs) :
    Marked (c :: cs)
  | key {rest : List Char} (k : Key) (hk : k.Tidy) (hapart : Apart rest) (hrest : Marked rest) :
    Marked (k.text ++ mark ++ rest)

theorem marked_replaceFrom (cs : List Char) : Marked (replaceFrom secret? 0 cs) := by
  induction cs using secrets_induction with
  | nil => exact .nil
  | pass c cs h ih =>
    rw [Text.replaceFrom_of_none h]
    refine .pass ?_ ih
    rcases replaceFrom_secret_cases cs with heq | hparts
    · rwa [heq]
    · generalize replaceFrom secret? 0 cs = cs' at hparts
      obtain ⟨hd, hd', hys, hys', -⟩ := hparts
      rw [← List.cons_append] at h ⊢
      rw [secret?_eq_none_iff_not_opens hd' hys']
      exact (secret?_eq_none_iff_not_opens hd hys).mp h
  | found k value rest hvalue hrest ih =>
    obtain ⟨k', htidy, -, -, heq⟩ := k.exists_replaceFrom hvalue hrest
    rw [heq]
    exact .key k' htidy (apart_replaceFrom hrest) ih

theorem Marked.of_secretAt (h : Marked cs) (hsecret : SecretAt cs value rest) :
    value = mark ∧ Marked rest := by
  cases h with
  | nil => exact absurd hsecret (secret?_eq_none_iff.mp rfl value rest)
  | pass hnone hcs => exact absurd hsecret (secret?_eq_none_iff.mp hnone value rest)
  | key k hk hapart hrest =>
    obtain ⟨rfl, rfl⟩ := hsecret.unique (.intro k isWord_mark hapart)
    exact ⟨rfl, hrest⟩

theorem Marked.tail (h : Marked (c :: cs)) (hnone : ∀ value rest, ¬ SecretAt (c :: cs) value rest) :
    Marked cs := by
  generalize heq : c :: cs = ys at h hnone
  cases h with
  | nil => cases heq
  | pass _ hcs =>
    obtain ⟨-, rfl⟩ := List.cons.inj heq
    exact hcs
  | key k _ hapart _ => exact absurd (.intro k isWord_mark hapart) (hnone _ _)

theorem eq_mark_of_leftmost (hvalue : Leftmost cs value) (h : Marked cs) : value = mark := by
  induction hvalue with
  | here hsecret => exact (h.of_secretAt hsecret).1
  | behind hsecret hrest ih => exact ih (h.of_secretAt hsecret).2
  | later hnone hcs ih => exact ih (h.tail hnone)

theorem Marked.replaceFrom_eq (h : Marked cs) : replaceFrom secret? 0 cs = cs := by
  induction h with
  | nil => rfl
  | pass h hcs ih => rw [Text.replaceFrom_of_none h, ih]
  | key k hk hapart hrest ih => rw [k.replaceFrom_of_tidy hk isWord_mark (by decide) hapart, ih]

/-! ### The beginning of a marked text -/

theorem secret?_of_prefix (hxs : xs <+: cs) (h : secret? cs = none) : secret? xs = none := by
  rw [secret?_eq_none_iff]
  rintro value rest ⟨k, hvalue, hrest⟩
  obtain ⟨more, rfl⟩ := hxs
  -- the value goes on with what is cut off
  have hword : IsWord (value ++ word (rest ++ more)) := by
    refine ⟨by simp [hvalue.ne_nil], fun c hc => ?_⟩
    rcases List.mem_append.mp hc with hc | hc
    · exact hvalue.plain c hc
    · simpa using List.all_eq_true.mp (List.all_takeWhile (p := fun c => !isBlank c)) c hc
  have hsecret := SecretAt.intro k hword (apart_pastWord (rest ++ more))
  rw [List.append_assoc, List.append_assoc, word_append_pastWord, ← List.append_assoc,
    ← List.append_assoc] at hsecret
  exact secret?_eq_none_iff.mp h _ _ hsecret

/-- Behind a separator there are only blanks. -/
def Bare (cs : List Char) : Prop := cs.Pairwise fun c d => isSeparator c → isBlank d

theorem Bare.secret?_eq_none (h : Bare cs) : secret? cs = none := by
  rw [secret?_eq_none_iff]
  rintro value rest ⟨k, hvalue, -⟩
  obtain ⟨c, hc⟩ := List.exists_mem_of_ne_nil value hvalue.ne_nil
  have hblank := (List.pairwise_append.mp (List.pairwise_append.mp h).1).2.2 k.separator
    (by simp [Key.text]) c hc k.isSeparator
  rw [hvalue.plain c hc] at hblank
  cases hblank

theorem Key.bare_text (k : Key) : Bare k.text := by
  refine List.pairwise_append.mpr ⟨?_, List.pairwise_cons.mpr ⟨fun d hd _ => ?_, ?_⟩, ?_⟩
  · refine List.pairwise_of_forall_mem_list fun c hc d _ hsep => ?_
    rw [k.isSeparator_of_mem_lead c hc] at hsep
    cases hsep
  · exact k.pause_blank d hd
  · exact List.pairwise_of_forall_mem_list fun _ _ d hd _ => k.pause_blank d hd
  · intro c hc d _ hsep
    rw [k.isSeparator_of_mem_lead c hc] at hsep
    cases hsep

theorem replaceFrom_take_text (k : Key) (n : ℕ) :
    replaceFrom secret? 0 (k.text.take n) = k.text.take n :=
  Text.replaceFrom_eq_self fun _ hys _ =>
    Bare.secret?_eq_none (k.bare_text.sublist (hys.sublist.trans (List.take_sublist n k.text)))

theorem isWord_take_mark (m : ℕ) : IsWord (mark.take (m + 1)) where
  ne_nil := by
    rw [Ne, List.take_eq_nil_iff, not_or]
    exact ⟨Nat.succ_ne_zero m, isWord_mark.ne_nil⟩
  plain c hc := isWord_mark.plain c (List.mem_of_mem_take hc)

theorem Apart.take (h : Apart rest) (n : ℕ) : Apart (rest.take n) := by
  intro c hc
  rw [List.head?_take] at hc
  split at hc
  · cases hc
  · exact h c hc

/-- A cut goes through no more than one mark, which then is put there again. -/
theorem Marked.take_redacted (h : Marked cs) (n : ℕ) :
    cs.take n <+: replaceFrom secret? 0 (cs.take n) := by
  induction h generalizing n with
  | nil => simp
  | @pass c cs h hcs ih =>
    cases n with
    | zero => exact List.nil_prefix
    | succ n =>
      have hnone : secret? (c :: cs.take n) = none :=
        secret?_of_prefix (List.cons_prefix_cons.mpr ⟨rfl, List.take_prefix n cs⟩) h
      rw [List.take_succ_cons, Text.replaceFrom_of_none hnone]
      exact List.cons_prefix_cons.mpr ⟨rfl, ih n⟩
  | @key rest k hk hapart hrest ih =>
    by_cases hn : n ≤ k.text.length
    -- the value is cut off, and a key alone is no secret
    · have htake : (k.text ++ mark ++ rest).take n = k.text.take n := by
        rw [List.append_assoc, List.take_append_of_le_length hn]
      rw [htake, replaceFrom_take_text]
    -- what is left of the mark is the value now
    · obtain ⟨m, rfl⟩ : ∃ m, n = k.text.length + (m + 1) :=
        ⟨n - k.text.length - 1, by omega⟩
      have htake : (k.text ++ mark ++ rest).take (k.text.length + (m + 1)) =
          k.text ++ mark.take (m + 1) ++ rest.take (m + 1 - mark.length) := by
        rw [List.append_assoc, List.take_length_add_append, List.take_append, List.append_assoc]
      have heq : '=' ∉ mark.take (m + 1) := fun hc => absurd (List.mem_of_mem_take hc) (by decide)
      rw [htake, k.replaceFrom_of_tidy hk (isWord_take_mark m) heq (hapart.take _)]
      by_cases hm : mark.length ≤ m + 1
      · rw [List.take_of_length_le hm]
        exact (List.prefix_append_right_inj _).mpr (ih _)
      · have hnil : m + 1 - mark.length = 0 := by omega
        rw [hnil, List.take_zero, List.append_nil, List.append_assoc]
        exact (List.prefix_append_right_inj _).mpr
          ((List.take_prefix _ _).trans (List.prefix_append ..))

/-! ### Addresses -/

/-- No credentials come up around a mark. -/
theorem free_replaceFrom_secret (h : Free cs) : Free (replaceFrom secret? 0 cs) := by
  induction cs using secrets_induction with
  | nil => exact h
  | pass c cs hnone ih =>
    rw [Text.replaceFrom_of_none hnone]
    refine free_cons ?_ (ih h.tail)
    have hcs := h _ List.suffix_rfl
    rcases replaceFrom_secret_cases cs with heq | hparts
    · rwa [heq]
    · generalize replaceFrom secret? 0 cs = cs' at hparts
      obtain ⟨-, -, -, -, hat⟩ := hparts
      rw [← List.cons_append] at hcs ⊢
      rw [credentials?_append hat]
      exact Free.of_isPrefix h (List.prefix_append ..) _ List.suffix_rfl
  | found k value rest hvalue hrest ih =>
    obtain ⟨k', htidy, -, -, heq⟩ := k.exists_replaceFrom hvalue hrest
    rw [heq]
    refine free_append (ih fun ys hys => h ys (hys.trans (List.suffix_append ..))) fun ys hys _ => ?_
    exact credentials?_of_notMem
      (notMem_word_append (mt (hys.subset ·) (k'.at_notMem_mark htidy)) (apart_replaceFrom hrest))

/-! ### Sanitized messages -/

/-- What stands in the place of a text, before it is cut to a limit. -/
def redacted (cs : List Char) : List Char :=
  replaceFrom secret? 0 (replaceFrom credentials? 0 cs)

theorem free_redacted (cs : List Char) : Free (redacted cs) :=
  free_replaceFrom_secret (free_replaceFrom_credentials cs)

theorem marked_redacted (cs : List Char) : Marked (redacted cs) := marked_replaceFrom _

theorem redacted_of_free (h : Free cs) : redacted cs = replaceFrom secret? 0 cs := by
  rw [redacted, Text.replaceFrom_eq_self fun ys hys _ => h ys hys]

theorem toList_sanitize (most : ℕ) (message : String) :
    (sanitize most message).toList = (redacted message.toList).take most := by
  rw [sanitize, String.toList_ofList, sanitizeChars, clip, if_pos (Int.natCast_nonneg most),
    Int.toNat_natCast]
  rfl

theorem take_redacted_take (most : ℕ) (cs : List Char) :
    (redacted ((redacted cs).take most)).take most = (redacted cs).take most := by
  have hfree : Free ((redacted cs).take most) := (free_redacted cs).of_isPrefix (List.take_prefix ..)
  rw [redacted_of_free hfree]
  by_cases hlength : (redacted cs).length ≤ most
  · rw [List.take_of_length_le hlength, (marked_redacted cs).replaceFrom_eq,
      List.take_of_length_le hlength]
  · have hcut : ((redacted cs).take most).length = most :=
      List.length_take_of_le (Nat.le_of_not_le hlength)
    have hsame := List.prefix_iff_eq_take.mp ((marked_redacted cs).take_redacted most)
    rw [hcut] at hsame
    exact hsame.symm

/-- A sanitized message fits its limit, holds no credentials of an address, is cut from a text in
which the value of every secret is a mark, and is sanitized to itself. -/
theorem sanitize_settled (most : ℕ) (message : String) :
    let output := sanitize most message
    output.length ≤ most ∧ (∀ xs, xs <:+: output.toList → ¬ IsAddress xs) ∧
      (output.toList = (redacted message.toList).take most ∧
        ∀ value, Leftmost (redacted message.toList) value → value = mark) ∧
      sanitize most output = output := by
  intro output
  have houtput : output.toList = (redacted message.toList).take most := toList_sanitize most message
  refine ⟨?_, ?_, ⟨houtput, fun value hvalue => ?_⟩, ?_⟩
  · rw [← String.length_toList, houtput]
    exact List.length_take_le most _
  · rw [houtput, ← free_iff]
    exact (free_redacted _).of_isPrefix (List.take_prefix ..)
  · exact eq_mark_of_leftmost hvalue (marked_redacted _)
  · rw [← String.toList_inj, toList_sanitize, houtput]
    exact take_redacted_take most message.toList

end AuthMap.Redact
