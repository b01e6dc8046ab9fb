import AuthMap.Proofs.Redact.Secrets

/-! Keys with their values: the name of a secret, a separator, and the word that follows. What is put
in the place of a key with its value is a key again, with a mark for its value. -/

namespace AuthMap.Redact

open Text (replaceFrom isBlank)

variable {c : Char} {cs xs ys rest value : List Char}

structure IsWord (value : List Char) : Prop where
  ne_nil : value ≠ []
  plain : ∀ c ∈ value, isBlank c = false

def Apart (rest : List Char) : Prop := ∀ c ∈ rest.head?, isBlank c

structure Key where
  name : List Char
  gap : List Char
  separator : Char
  pause : List Char
  isName : IsName name
  gap_blank : ∀ c ∈ gap, isBlank c
  isSeparator : isSeparator separator
  pause_blank : ∀ c ∈ pause, isBlank c

def Key.text (k : Key) : List Char := k.name ++ k.gap ++ k.separator :: k.pause

/-- A text begins with a key and a value, which is a whole word; the rest is what follows. -/
inductive SecretAt : List Char → List Char → List Char → Prop where
  | intro (k : Key) {value rest : List Char} (hvalue : IsWord value) (hrest : Apart rest) :
    SecretAt (k.text ++ value ++ rest) value rest

/-! ### Where a secret is -/

theorem pastWord_of_apart (h : Apart rest) : pastWord rest = rest := by
  have hparts := word_append_pastWord rest
  rwa [word_of_blank h, List.nil_append] at hparts

theorem apart_pastWord (cs : List Char) : Apart (pastWord cs) := by
  intro c hc
  have hne := List.head?_dropWhile_not (fun c => !isBlank c) cs
  unfold pastWord at hc
  rw [Option.mem_def.mp hc] at hne
  simpa using hne

theorem isWord_word (h : ∀ c ∈ cs.head?, isBlank c = false) (hne : cs ≠ []) : IsWord (word cs) where
  ne_nil := by
    obtain ⟨c, cs, rfl⟩ := List.exists_cons_of_ne_nil hne
    have hc : isBlank c = false := h c rfl
    simp [word, hc]
  plain c hc := by
    have hword := List.all_eq_true.mp (List.all_takeWhile (p := fun c => !isBlank c)) c hc
    simpa using hword

namespace IsWord

theorem dropWhile_append (h : IsWord value) (hxs : ∀ c ∈ xs, isBlank c) (rest : List Char) :
    (xs ++ (value ++ rest)).dropWhile isBlank = value ++ rest := by
  obtain ⟨c, cs, rfl⟩ := List.exists_cons_of_ne_nil h.ne_nil
  rw [List.cons_append, dropWhile_append_cons (h.plain c List.mem_cons_self),
    List.dropWhile_eq_nil_iff.mpr hxs, List.nil_append]

theorem pastWord_append (h : IsWord value) (hrest : Apart rest) :
    pastWord (value ++ rest) = rest := by
  have hvalue : pastWord value = [] := List.dropWhile_eq_nil_iff.mpr fun c hc => by
    simp [h.plain c hc]
  rw [Redact.pastWord_append, if_pos hvalue, pastWord_of_apart hrest]

end IsWord

namespace Key

variable (k : Key)

theorem text_eq : k.text = k.name ++ (k.gap ++ k.separator :: k.pause) := List.append_assoc ..

theorem text_append (rest : List Char) :
    k.text ++ rest = k.name ++ k.gap ++ k.separator :: (k.pause ++ rest) := List.append_assoc ..

theorem text_ne_nil : k.text ≠ [] := by simp [text]

theorem named?_append (rest : List Char) :
    named? (k.text ++ rest) = some (k.gap ++ k.separator :: (k.pause ++ rest)) := by
  rw [text_eq, List.append_assoc, named?_of_isName k.isName, List.append_assoc, List.cons_append]

theorem dropWhile_gap (rest : List Char) :
    (k.gap ++ k.separator :: rest).dropWhile isBlank = k.separator :: rest := by
  rw [dropWhile_append_cons (isBlank_of_isSeparator k.isSeparator),
    List.dropWhile_eq_nil_iff.mpr k.gap_blank, List.nil_append]

theorem secret?_append (hvalue : IsWord value) (hrest : Apart rest) :
    secret? (k.text ++ value ++ rest) =
      some ((k.text ++ value).length, withoutValue (k.text ++ value)) := by
  have hdrop := hvalue.dropWhile_append k.pause_blank rest
  have hafter : afterValue (k.gap ++ k.separator :: (k.pause ++ (value ++ rest))) = some rest := by
    rw [afterValue_of_separator (k.dropWhile_gap _) k.isSeparator (by simp [hdrop, hvalue.ne_nil]),
      hdrop, hvalue.pastWord_append hrest]
  have hnamed := k.named?_append (value ++ rest)
  rw [← List.append_assoc] at hnamed
  rw [secret?_eq, hnamed, Option.bind_some, hafter, Option.map_some, List.length_append,
    Nat.add_sub_cancel, List.take_left]

end Key

/-- The places where a secret is, as a search finds them. -/
theorem secretAt_iff : SecretAt cs value rest ↔
    ∃ after c ds, named? cs = some after ∧ after.dropWhile isBlank = c :: ds ∧ isSeparator c ∧
      ds.dropWhile isBlank ≠ [] ∧ value = word (ds.dropWhile isBlank) ∧
      rest = pastWord (ds.dropWhile isBlank) := by
  constructor
  · rintro ⟨k, hvalue, hrest⟩
    have hdrop := hvalue.dropWhile_append k.pause_blank rest
    refine ⟨_, _, _, ?_, k.dropWhile_gap (k.pause ++ (value ++ rest)), k.isSeparator, ?_, ?_, ?_⟩
    · rw [List.append_assoc, k.named?_append]
    · simp [hdrop, hvalue.ne_nil]
    · rw [hdrop, word_append hvalue.plain, word_of_blank hrest, List.append_nil]
    · rw [hdrop, hvalue.pastWord_append hrest]
  · rintro ⟨after, c, ds, hafter, hdrop, hc, hne, rfl, rfl⟩
    obtain ⟨name, hname, hpre, rfl⟩ := named?_eq_some.mp hafter
    let k : Key := {
      name := cs.take name.length
      gap := (cs.drop name.length).takeWhile isBlank
      separator := c
      pause := ds.takeWhile isBlank
      isName := by
        rw [isName_iff, List.map_take, ← List.prefix_iff_eq_take.mp hpre]
        exact hname
      gap_blank := List.all_eq_true.mp List.all_takeWhile
      isSeparator := hc
      pause_blank := List.all_eq_true.mp List.all_takeWhile }
    have hvalue : IsWord (word (ds.dropWhile isBlank)) := by
      refine isWord_word (fun c hc => ?_) hne
      have hhead := List.head?_dropWhile_not isBlank ds
      rw [Option.mem_def.mp hc] at hhead
      simpa using hhead
    have htext : k.text ++ word (ds.dropWhile isBlank) ++ pastWord (ds.dropWhile isBlank) = cs := by
      rw [List.append_assoc, word_append_pastWord, k.text_eq, List.append_assoc, List.append_assoc,
        List.cons_append, List.takeWhile_append_dropWhile, ← hdrop,
        List.takeWhile_append_dropWhile, List.take_append_drop]
    have hsecret := SecretAt.intro k hvalue (apart_pastWord (ds.dropWhile isBlank))
    rwa [htext] at hsecret

theorem SecretAt.unique {value' rest' : List Char} (h : SecretAt cs value rest)
    (h' : SecretAt cs value' rest') : value = value' ∧ rest = rest' := by
  obtain ⟨after, c, ds, hafter, hdrop, -, -, rfl, rfl⟩ := secretAt_iff.mp h
  obtain ⟨after', c', ds', hafter', hdrop', -, -, rfl, rfl⟩ := secretAt_iff.mp h'
  obtain rfl := Option.some.inj (hafter.symm.trans hafter')
  obtain ⟨-, rfl⟩ := List.cons.inj (hdrop.symm.trans hdrop')
  exact ⟨rfl, rfl⟩

theorem secret?_eq_none_iff : secret? cs = none ↔ ∀ value rest, ¬ SecretAt cs value rest := by
  constructor
  · rintro h value rest ⟨k, hvalue, hrest⟩
    rw [k.secret?_append hvalue hrest] at h
    cases h
  · intro h
    rw [secret?_eq, Option.map_eq_none_iff]
    cases hafter : named? cs with
    | none => rfl
    | some after =>
      rw [Option.bind_some]
      cases hdrop : after.dropWhile isBlank with
      | nil =>
        unfold afterValue
        rw [hdrop]
      | cons c ds =>
        cases hc : isSeparator c with
        | false => exact afterValue_of_not_separator hdrop hc
        | true =>
          have hnil : ds.dropWhile isBlank = [] := by
            by_contra hne
            exact h _ _ (secretAt_iff.mpr ⟨after, c, ds, hafter, hdrop, hc, hne, rfl, rfl⟩)
          unfold afterValue
          unfold isSeparator at hc
          simp only [hdrop, hc, if_true, hnil]

theorem exists_key_of_secret? {n : Nat} {text : List Char} (h : secret? cs = some (n, text)) :
    ∃ (k : Key) (value rest : List Char), IsWord value ∧ Apart rest ∧ cs = k.text ++ value ++ rest ∧
      n = (k.text ++ value).length ∧ text = withoutValue (k.text ++ value) := by
  have hsome : ¬ ∀ value rest, ¬ SecretAt cs value rest := by
    rw [← secret?_eq_none_iff, h]
    exact nofun
  simp only [not_forall, not_not] at hsome
  obtain ⟨value, rest, k, hvalue, hrest⟩ := hsome
  rw [k.secret?_append hvalue hrest] at h
  cases h
  exact ⟨k, value, rest, hvalue, hrest, rfl, rfl, rfl⟩

/-- A text in the parts that a search for secrets takes it in. -/
@[elab_as_elim]
theorem secrets_induction {motive : List Char → Prop} (nil : motive [])
    (pass : ∀ c cs, secret? (c :: cs) = none → motive cs → motive (c :: cs))
    (found : ∀ (k : Key) (value rest : List Char), IsWord value → Apart rest → motive rest →
      motive (k.text ++ value ++ rest)) (cs : List Char) : motive cs := by
  refine Text.search_induction (fun cs n text h => ?_) nil pass (fun xs rest text hne h ih => ?_) cs
  · obtain ⟨k, value, rest, hvalue, -, rfl, rfl, -⟩ := exists_key_of_secret? h
    exact ⟨List.length_pos_iff.mpr (by simp [hvalue.ne_nil]), by simp⟩
  · obtain ⟨k, value, rest', hvalue, hrest, heq, hlength, -⟩ := exists_key_of_secret? h
    obtain ⟨rfl, rfl⟩ := List.append_inj heq hlength
    exact found k value rest hvalue hrest ih

/-! ### Keys that are written -/

theorem isWord_mark : IsWord mark := ⟨by decide, List.forall_iff_forall_mem.mp (by decide)⟩

namespace Key

variable (k : Key)

/-- The two ways in which a key stands before a mark. -/
def Tidy : Prop := k.separator = '=' ∧ k.pause = [] ∨ k.separator = ':' ∧ k.pause = [' ']

theorem isSeparator_of_mem_lead : ∀ c ∈ k.name ++ k.gap, Redact.isSeparator c = false := by
  intro c hc
  rw [Bool.eq_false_iff]
  intro hsep
  rcases List.mem_append.mp hc with hc | hc
  · exact not_foreign_of_mem k.isName hc (foreign_of_isSeparator hsep)
  · have hblank := isBlank_of_isSeparator hsep
    rw [k.gap_blank c hc] at hblank
    cases hblank

theorem ne_of_mem_lead {c : Char} (hc : c ∈ k.name ++ k.gap) : c ≠ '=' ∧ c ≠ ':' := by
  have hsep := k.isSeparator_of_mem_lead c hc
  constructor
  all_goals
    rintro rfl
    cases hsep

/-- What is put in the place of a key with its value depends on whether they hold an equals sign. -/
theorem withoutValue_text (value : List Char) : withoutValue (k.text ++ value) =
    k.name ++ k.gap ++ if '=' ∈ k.text ++ value then '=' :: mark else ':' :: ' ' :: mark := by
  have hlead (p : Char → Bool) (hp : ∀ c ∈ k.name ++ k.gap, p c) (hsep : p k.separator = false) :
      (k.text ++ value).takeWhile p = k.name ++ k.gap := by
    rw [text_append, List.takeWhile_append_of_pos hp, List.takeWhile_cons_of_neg (by simp [hsep]),
      List.append_nil]
  have hsep := isSeparator_iff.mp k.isSeparator
  unfold withoutValue
  by_cases heq : '=' ∈ k.text ++ value
  · rw [if_pos (by simpa using heq), if_pos heq, hlead]
    · intro c hc
      simp [k.ne_of_mem_lead hc]
    · rcases hsep with h | h <;> simp [h]
  · have hcolon : k.separator = ':' := hsep.resolve_left fun h => heq (by simp [text, h])
    rw [if_neg (by simpa using heq), if_neg heq, hlead]
    · intro c hc
      simp [k.ne_of_mem_lead hc]
    · simp [hcolon]

theorem eq_notMem_text (hsep : k.separator = ':') (hpause : k.pause = [' ']) : '=' ∉ k.text := by
  rw [text, hsep, hpause, List.mem_append, not_or]
  exact ⟨fun hc => (k.ne_of_mem_lead hc).1 rfl, by decide⟩

theorem withoutValue_of_tidy (h : k.Tidy) (hvalue : '=' ∉ value) :
    withoutValue (k.text ++ value) = k.text ++ mark := by
  rw [withoutValue_text]
  rcases h with ⟨hsep, hpause⟩ | ⟨hsep, hpause⟩
  · rw [if_pos (by simp [text, hsep]), text_append, hsep, hpause]
    rfl
  · have heq : '=' ∉ k.text ++ value := by
      rw [List.mem_append, not_or]
      exact ⟨k.eq_notMem_text hsep hpause, hvalue⟩
    rw [if_neg heq, text_append, hsep, hpause]
    rfl

/-- A key with its value becomes a key with a mark, and only the separator and what follows it may
change. -/
theorem exists_tidy (value : List Char) : ∃ k' : Key, k'.Tidy ∧ k'.name = k.name ∧ k'.gap = k.gap ∧
    withoutValue (k.text ++ value) = k'.text ++ mark := by
  rw [withoutValue_text]
  by_cases heq : '=' ∈ k.text ++ value
  · refine ⟨{ k with separator := '=', pause := [], isSeparator := rfl, pause_blank := nofun },
      Or.inl ⟨rfl, rfl⟩, rfl, rfl, ?_⟩
    rw [if_pos heq, text_append]
    rfl
  · refine ⟨{ k with
        separator := ':', pause := [' '], isSeparator := rfl
        pause_blank := List.forall_mem_singleton.mpr rfl }, Or.inr ⟨rfl, rfl⟩, rfl, rfl, ?_⟩
    rw [if_neg heq, text_append]
    rfl

end Key

end AuthMap.Redact
