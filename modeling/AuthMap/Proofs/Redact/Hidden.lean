import AuthMap.Proofs.Redact.Secrets

/-! Which secrets a message hides. A value right behind its name and its separator is always hidden.
One that a blank keeps from its name is shown if the name is taken for the value of an earlier one,
and so is every second word of a value. -/

namespace AuthMap.Redact

open Text (search replaceFrom isBlank)

variable {c : Char} {cs xs ys rest name value : List Char}

/-- A word, which has no equals sign and no at sign. -/
structure IsSecret (value : List Char) : Prop where
  ne_nil : value ≠ []
  plain : ∀ c ∈ value, isBlank c = false ∧ c ≠ '=' ∧ c ≠ '@'

theorem isSecret_iff : IsSecret value ↔
    value ≠ [] ∧ value.Forall fun c => isBlank c = false ∧ c ≠ '=' ∧ c ≠ '@' := by
  rw [List.forall_iff_forall_mem]
  exact ⟨fun h => ⟨h.ne_nil, h.plain⟩, fun h => ⟨h.1, h.2⟩⟩

instance : DecidablePred IsSecret := fun _ => decidable_of_iff _ isSecret_iff.symm

/-- A text ends in a value, so that the value takes a character that follows. -/
def EndsInValue (cs : List Char) : Prop := (search secret? ['0'] 0 cs).2 ≠ 0

instance : DecidablePred EndsInValue := fun cs =>
  inferInstanceAs (Decidable ((search secret? ['0'] 0 cs).2 ≠ 0))

/-! ### Places for a secret -/

/-- A message around the value of a named secret. -/
structure Slot where
  before : List Char := []
  name : List Char
  gap : List Char := []
  separator : Char
  pause : List Char := []
  after : List Char := []
  isName : IsName name
  gap_blank : ∀ c ∈ gap, isBlank c
  isSeparator : isSeparator separator
  pause_blank : ∀ c ∈ pause, isBlank c
  apart : ∀ c ∈ after.head?, isBlank c

namespace Slot

variable (s : Slot)

def key : List Char := s.name ++ s.gap ++ s.separator :: s.pause

def message (value : List Char) : String :=
  String.ofList (s.before ++ (s.key ++ value ++ s.after))

/-- What stands before the secret when the addresses are done. -/
def front : List Char := replaceFrom credentials? 0 s.before

def back : List Char := replaceFrom credentials? 0 s.after

theorem back_apart : ∀ c ∈ s.back.head?, isBlank c := replaceFrom_credentials_head? s.apart

theorem isBlank_of_mem_name {c : Char} (h : c ∈ s.name) : isBlank c = false :=
  Bool.eq_false_iff.mpr (mt foreign_of_isBlank (not_foreign_of_mem s.isName h))

theorem at_notMem_key : '@' ∉ s.key := by
  have hat : Foreign '@' := by decide
  simp only [key, List.mem_append, List.mem_cons, not_or]
  refine ⟨⟨fun h => not_foreign_of_mem s.isName h hat, fun h => ?_⟩, fun h => ?_, fun h => ?_⟩
  · exact absurd (s.gap_blank _ h) (by decide)
  · exact absurd s.isSeparator (h ▸ by decide)
  · exact absurd (s.pause_blank _ h) (by decide)

/-- What parts the name of the secret from its value. -/
theorem foreign_of_mem_pause {c : Char} (h : c ∈ s.separator :: s.pause) : Foreign c := by
  rcases List.mem_cons.mp h with rfl | h
  · exact foreign_of_isSeparator s.isSeparator
  · exact foreign_of_isBlank (s.pause_blank c h)

theorem sanitize_message (hvalue : '@' ∉ value) (most : Int) :
    sanitize most (s.message value) =
      String.ofList
        (clip most (replaceFrom secret? 0 (s.front ++ (s.key ++ value ++ s.back)))) := by
  have hkey : '@' ∉ s.key ++ value := by
    rw [List.mem_append, not_or]
    exact ⟨s.at_notMem_key, hvalue⟩
  rw [sanitize, message, String.toList_ofList, sanitizeChars,
    replaceFrom_credentials hkey s.apart]
  rfl

/-- No name reaches into the value of the secret, and each value that has begun before goes on with
it. -/
theorem goesOn_key (hys : ys <:+ s.front ++ s.key) (hne : ys ≠ []) (hc : isBlank c = false) :
    GoesOn ys (c :: cs) := by
  rw [key, ← List.append_assoc] at hys
  constructor
  · have hlast := List.getLast_mem (List.cons_ne_nil s.separator s.pause)
    rw [← List.dropLast_concat_getLast (List.cons_ne_nil s.separator s.pause),
      ← List.append_assoc] at hys
    obtain ⟨zs, rfl, -⟩ := (List.suffix_concat_iff.mp hys).resolve_left hne
    exact unbroken_concat_of_foreign (s.foreign_of_mem_pause hlast)
  · refine ⟨c, cs, rfl, hc, fun after hafter hblank => ?_⟩
    exfalso
    rcases List.suffix_or_suffix_of_suffix hys (List.suffix_append ..) with hle | ⟨zs, rfl⟩
    · obtain ⟨d, ds, rfl⟩ := List.exists_cons_of_ne_nil hne
      have hd := s.foreign_of_mem_pause (hle.subset List.mem_cons_self)
      rw [named?_cons_of_foreign hd] at hafter
      cases hafter
    · rw [named?_append (unbroken_of_foreign (foreign_of_isSeparator s.isSeparator)),
        Option.map_eq_some_iff] at hafter
      obtain ⟨after', -, rfl⟩ := hafter
      have hsep := List.dropWhile_eq_nil_iff.mp hblank s.separator (by simp)
      rw [isBlank_of_isSeparator s.isSeparator] at hsep
      cases hsep

/-! ### What the search of a message takes -/

/-- The search of what stands before the name of the secret goes no further, or it takes the word
that begins with the name. -/
theorem search_front (more : List Char) :
    (search secret? (s.name ++ more) 0 s.front).2 = 0 ∧ ¬ EndsInValue s.front ∨
      (search secret? (s.name ++ more) 0 s.front).2 = (word (s.name ++ more)).length ∧
        EndsInValue s.front := by
  have hcongr := (search_congr (fun ys _ hys => goesOn_name s.isName hys more)
    (fun ys _ _ => goesOn_zero ys []) (Nat.zero_le s.front.length)).1
  rcases hcongr with ⟨hzero, hends⟩ | ⟨hword, hends⟩
  · exact Or.inl ⟨hzero, fun h => h hends⟩
  · exact Or.inr ⟨hword, by rw [EndsInValue, hends]; decide⟩

theorem ending?_key : ending? s.key = some [] := by
  have hvalue : valueRest (s.gap ++ s.separator :: s.pause) = some [] := by
    unfold valueRest
    rw [dropWhile_append_cons (isBlank_of_isSeparator s.isSeparator),
      List.dropWhile_eq_nil_iff.mpr s.gap_blank, List.nil_append]
    simp only [s.isSeparator, if_true]
    rw [List.dropWhile_eq_nil_iff.mpr s.pause_blank]
    rfl
  rw [ending?, key, List.append_assoc, named?_of_isName s.isName, Option.bind_some, hvalue]

end Slot

/-- No value begins where there is no separator, or before a name. -/
theorem ending?_eq_none {lead : List Char} (hxs : ∀ c ∈ xs, Foreign c)
    (hlead : ∀ c ∈ lead, isSeparator c = false) (hys : ys <:+ xs ++ lead) (hne : ys ≠ []) :
    ending? ys = none := by
  by_cases hle : ys <:+ lead
  · cases h : ending? ys with
    | none => rfl
    | some left =>
      obtain ⟨c, hc, hsep⟩ := exists_separator_of_ending? h
      rw [hlead c (hle.subset hc)] at hsep
      cases hsep
  · obtain ⟨zs, rfl⟩ :=
      (List.suffix_or_suffix_of_suffix hys (List.suffix_append xs lead)).resolve_left hle
    have hzs : zs <:+ xs := ((List.suffix_append_inj_of_length_eq rfl).mp hys).1
    cases zs with
    | nil => exact absurd List.suffix_rfl hle
    | cons c cs =>
      have hc := hxs c (hzs.subset List.mem_cons_self)
      rw [ending?, List.cons_append, named?_cons_of_foreign hc, Option.bind_none]

theorem search_foreign {lead : List Char} (hxs : ∀ c ∈ xs, Foreign c)
    (hlead : ∀ c ∈ lead, isSeparator c = false) (cs : List Char) :
    search secret? ('0' :: cs) 0 (xs ++ lead) = (xs ++ lead, 0) :=
  search_of_quiet fun ys hys hne => ⟨goesOn_zero ys cs, ending?_eq_none hxs hlead hys hne⟩

namespace Slot

variable (s : Slot) {lead : List Char}

theorem key_eq : s.key = s.name ++ (s.gap ++ s.separator :: s.pause) := List.append_assoc ..

theorem isBlank_of_mem_name_concat : ∀ c ∈ s.name ++ [s.separator], isBlank c = false := by
  intro c hc
  rcases List.mem_append.mp hc with hc | hc
  · exact s.isBlank_of_mem_name hc
  · rw [List.mem_singleton.mp hc]
    exact isBlank_of_isSeparator s.isSeparator

theorem isBlank_of_mem_key (h : s.gap = [] ∧ s.pause = []) : ∀ c ∈ s.key, isBlank c = false := by
  rw [key, h.1, h.2, List.append_nil]
  exact s.isBlank_of_mem_name_concat

/-- The first word of a key that has blanks in it, and what stands behind. -/
theorem exists_key_eq (h : ¬ (s.gap = [] ∧ s.pause = [])) :
    ∃ xs b bs, s.key = xs ++ b :: bs ∧ (∀ c ∈ xs, isBlank c = false) ∧ isBlank b = true ∧
      ∀ c ∈ b :: bs, Foreign c := by
  cases hgap : s.gap with
  | nil =>
    obtain ⟨b, bs, hpause⟩ := List.exists_cons_of_ne_nil fun hpause => h ⟨hgap, hpause⟩
    refine ⟨s.name ++ [s.separator], b, bs, ?_, s.isBlank_of_mem_name_concat, ?_, ?_⟩
    · rw [key, hgap, hpause]
      simp
    · exact s.pause_blank b (by simp [hpause])
    · exact fun c hc => s.foreign_of_mem_pause (List.mem_cons_of_mem _ (hpause ▸ hc))
  | cons b bs =>
    refine ⟨s.name, b, bs ++ s.separator :: s.pause, ?_, fun c => s.isBlank_of_mem_name, ?_, ?_⟩
    · rw [key_eq, hgap, List.cons_append]
    · exact s.gap_blank b (by simp [hgap])
    · intro c hc
      rw [← List.cons_append, ← hgap] at hc
      rcases List.mem_append.mp hc with hc | hc
      · exact foreign_of_isBlank (s.gap_blank c hc)
      · exact s.foreign_of_mem_pause hc

/-- A value that takes no more than the first word of the key hides nothing of what follows. -/
theorem search_after_word (h : ¬ (s.gap = [] ∧ s.pause = []))
    (hlead : ∀ c ∈ lead, Redact.isSeparator c = false) (more cs : List Char) :
    (search secret? ('0' :: cs) (word (s.key ++ more)).length (s.key ++ lead)).2 = 0 := by
  obtain ⟨xs, b, bs, hkey, hxs, hb, hforeign⟩ := s.exists_key_eq h
  have hword : word (s.key ++ more) = xs := by
    rw [hkey, List.append_assoc, word_append hxs, word_of_blank (by simpa using hb),
      List.append_nil]
  rw [hword, hkey, List.append_assoc, Text.search_length_append, search_foreign hforeign hlead]

theorem word_zero_back : word ('0' :: s.back) = ['0'] := by
  have hzero : ∀ c ∈ ['0'], isBlank c = false := List.forall_mem_singleton.mpr rfl
  rw [← List.singleton_append, word_append hzero, word_of_blank s.back_apart, List.append_nil]

theorem key_ne_nil : s.key ≠ [] := by simp [key]

/-- A secret is hidden by the key before it, unless the key is itself in a value, to which the
secret does not belong as there is a blank in between. -/
theorem search_key :
    (search secret? ('0' :: s.back) 0 (s.front ++ s.key)).2 ≠ 0 ↔
      s.gap = [] ∧ s.pause = [] ∨ ¬ EndsInValue s.front := by
  have hself : (search secret? ('0' :: s.back) 0 s.key).2 = 1 := by
    have hfound := secret?_append (goesOn_zero s.key s.back)
    rw [ending?_key, Option.map_some, if_pos rfl, s.word_zero_back] at hfound
    obtain ⟨c, cs, hkey⟩ := List.exists_cons_of_ne_nil s.key_ne_nil
    rw [hkey] at hfound ⊢
    rw [Text.search_of_some hfound, Text.search_of_le (by simp)]
    simp
  have hfront := s.search_front ((s.gap ++ s.separator :: s.pause) ++ '0' :: s.back)
  rw [← List.append_assoc, ← key_eq] at hfront
  rw [Text.search_append_snd]
  rcases hfront with ⟨hzero, hends⟩ | ⟨hword, hends⟩
  · rw [hzero, hself]
    exact iff_of_true (by decide) (Or.inr hends)
  · rw [hword]
    by_cases h : s.gap = [] ∧ s.pause = []
    · rw [word_append (s.isBlank_of_mem_key h), s.word_zero_back, Text.search_of_le (by simp)]
      exact iff_of_true (by simp) (Or.inl h)
    · have hover := s.search_after_word h (List.forall_mem_nil _) ('0' :: s.back) s.back
      rw [List.append_nil] at hover
      exact iff_of_false (fun hne => hne hover) (by simp [h, hends])

/-- What follows the first word of a value is never hidden. -/
theorem search_second_word (hne : lead ≠ []) (hword : ∀ c ∈ lead, isBlank c = false)
    (hlead : ∀ c ∈ lead, Redact.isSeparator c = false) {b : Char} {bs : List Char}
    (hblank : ∀ c ∈ b :: bs, isBlank c) :
    (search secret? ('0' :: s.back) 0 (s.front ++ (s.key ++ (lead ++ b :: bs)))).2 = 0 := by
  have hblanks : search secret? ('0' :: s.back) 0 (b :: bs) = (b :: bs, 0) := by
    have hforeign : ∀ c ∈ b :: bs, Foreign c := fun c hc => foreign_of_isBlank (hblank c hc)
    have hquiet := search_foreign hforeign (List.forall_mem_nil _) s.back
    rwa [List.append_nil] at hquiet
  have hfirst : word (lead ++ (b :: bs ++ '0' :: s.back)) = lead := by
    rw [word_append hword, word_of_blank (by simpa using hblank b List.mem_cons_self),
      List.append_nil]
  have hself : (search secret? ('0' :: s.back) 0 (s.key ++ (lead ++ b :: bs))).2 = 0 := by
    obtain ⟨d, ds, rfl⟩ := List.exists_cons_of_ne_nil hne
    have hgoes : GoesOn s.key (d :: ds ++ (b :: bs ++ '0' :: s.back)) :=
      s.goesOn_key (List.suffix_append ..) s.key_ne_nil (hword d List.mem_cons_self)
    have hfound := secret?_append hgoes
    rw [ending?_key, Option.map_some, if_pos rfl, hfirst, ← List.length_append,
      ← List.append_assoc] at hfound
    rw [← List.append_assoc, Text.search_append_of_some (by simp) hfound, hblanks]
  have hfront := s.search_front ((s.gap ++ s.separator :: s.pause) ++
    (lead ++ b :: bs) ++ '0' :: s.back)
  rw [← List.append_assoc, ← List.append_assoc, ← key_eq] at hfront
  rw [Text.search_append_snd]
  rcases hfront with ⟨hzero, -⟩ | ⟨hreach, -⟩
  · rw [hzero, hself]
  · rw [hreach]
    by_cases h : s.gap = [] ∧ s.pause = []
    · rw [List.append_assoc, List.append_assoc, word_append (s.isBlank_of_mem_key h), hfirst,
        ← List.append_assoc, Text.search_length_append, hblanks]
    · rw [List.append_assoc]
      apply s.search_after_word h
      intro c hc
      rcases List.mem_append.mp hc with hc | hc
      · exact hlead c hc
      · exact Bool.eq_false_iff.mpr fun hsep =>
          Bool.false_ne_true ((isBlank_of_isSeparator hsep).symm.trans (hblank c hc))

end Slot

/-! ### Secrets that a message shows -/

/-- Two messages that differ in the secret alone come to the same text, whatever the limit. -/
def Hides (message : List Char → String) : Prop :=
  ∀ value value', IsSecret value → IsSecret value' → ∀ most,
    sanitize most (message value) = sanitize most (message value')

theorem IsSecret.notMem_at (h : IsSecret value) : '@' ∉ value := fun hc => (h.plain _ hc).2.2 rfl

theorem IsSecret.notMem_eq (h : IsSecret value) : '=' ∉ value := fun hc => (h.plain _ hc).2.1 rfl

theorem clip_length (cs : List Char) : clip cs.length cs = cs := by simp [clip]

namespace Slot

variable (s : Slot) {lead : List Char}

/-- The text that a message comes to: either nothing of the secret is left, or it is searched as
though it stood alone. -/
theorem replaceFrom_secret (hvalue : IsSecret value)
    (hxs : ∀ ys, ys <:+ xs → ys ≠ [] → GoesOn ys (value ++ s.back)) :
    replaceFrom secret? 0 (xs ++ (value ++ s.back)) =
      (search secret? ('0' :: s.back) 0 xs).1 ++
        if (search secret? ('0' :: s.back) 0 xs).2 = 0 then replaceFrom secret? 0 (value ++ s.back)
        else replaceFrom secret? 0 s.back := by
  have hword : word (value ++ s.back) = value := by
    rw [word_append fun c hc => (hvalue.plain c hc).1, word_of_blank s.back_apart,
      List.append_nil]
  obtain ⟨hreach, htext⟩ := search_congr hxs
    (fun ys _ _ => goesOn_zero ys s.back) (Nat.zero_le _)
  rw [hword, s.word_zero_back] at hreach htext
  rw [Text.replaceFrom_append, htext hvalue.notMem_eq (by decide)]
  rcases hreach with ⟨hzero, hzero'⟩ | ⟨hall, hone⟩
  · rw [hzero, hzero', if_pos rfl]
  · rw [hall, hone, if_neg (by decide), Text.replaceFrom_length]

theorem hides_of_search (h : (search secret? ('0' :: s.back) 0 (s.front ++ s.key)).2 ≠ 0) :
    Hides s.message := by
  have htext (value : List Char) (hvalue : IsSecret value) (most : Int) :
      sanitize most (s.message value) = String.ofList (clip most
        ((search secret? ('0' :: s.back) 0 (s.front ++ s.key)).1 ++
          replaceFrom secret? 0 s.back)) := by
    obtain ⟨c, cs, rfl⟩ := List.exists_cons_of_ne_nil hvalue.ne_nil
    rw [s.sanitize_message hvalue.notMem_at, List.append_assoc s.key, ← List.append_assoc,
      s.replaceFrom_secret hvalue, if_neg h]
    exact fun ys hys hne => s.goesOn_key hys hne (hvalue.plain c List.mem_cons_self).1
  intro value value' hvalue hvalue' most
  rw [htext value hvalue, htext value' hvalue']

theorem not_hides_of_search (hlead : '@' ∉ lead)
    (h : (search secret? ('0' :: s.back) 0 (s.front ++ (s.key ++ lead))).2 = 0) :
    ¬ Hides fun value => s.message (lead ++ value) := by
  let shown (c : Char) : List Char :=
    (search secret? ('0' :: s.back) 0 (s.front ++ (s.key ++ lead))).1 ++
      c :: replaceFrom secret? 0 s.back
  have htext (c : Char) (hc : Foreign c) (hsep : Redact.isSeparator c = false)
      (hsecret : IsSecret [c]) (most : Int) :
      sanitize most (s.message (lead ++ [c])) = String.ofList (clip most (shown c)) := by
    have hat : '@' ∉ lead ++ [c] := by
      rw [List.mem_append, not_or]
      exact ⟨hlead, hsecret.notMem_at⟩
    have hblank := (hsecret.plain c List.mem_cons_self).1
    have hquiet : secret? (c :: s.back) = none := by
      rw [secret?_eq, named?_cons_of_foreign hc]
      rfl
    rw [s.sanitize_message hat, ← List.append_assoc s.key, List.append_assoc (s.key ++ lead),
      ← List.append_assoc,
      s.replaceFrom_secret hsecret fun ys _ _ => goesOn_of_foreign hc hblank hsep ys s.back,
      if_pos h, List.singleton_append, Text.replaceFrom_of_none hquiet]
  have hsecret : IsSecret ['0'] ∧ IsSecret ['1'] := by decide
  intro hhides
  have hsame := hhides ['0'] ['1'] hsecret.1 hsecret.2 (shown '0').length
  have hlength : (shown '0').length = (shown '1').length := by simp [shown]
  rw [htext '0' (by decide) (by decide) hsecret.1,
    htext '1' (by decide) (by decide) hsecret.2] at hsame
  nth_rewrite 2 [hlength] at hsame
  rw [clip_length, clip_length, String.ofList_inj] at hsame
  exact absurd (List.cons.inj (List.append_cancel_left hsame)).1 (by decide)

end Slot

/-- A message hides the value of a named secret unless there is a blank between the name and the
value and what stands before, its addresses done, ends in another value, which then is hidden in the
place of this one. Of a value of two words, as of a header with a scheme and credentials, a message
never hides the second. -/
theorem hides_iff (s : Slot) :
    (Hides s.message ↔
      s.gap = [] ∧ s.pause = [] ∨ ¬ EndsInValue (replaceFrom credentials? 0 s.before)) ∧
    ∀ scheme blanks : List Char, scheme ≠ [] →
      (∀ c ∈ scheme, isBlank c = false ∧ isSeparator c = false ∧ c ≠ '@') →
      blanks ≠ [] → (∀ c ∈ blanks, isBlank c) →
        ¬ Hides fun credentials => s.message (scheme ++ blanks ++ credentials) := by
  constructor
  · rw [← Slot.front, ← s.search_key]
    constructor
    · intro hhides hzero
      exact s.not_hides_of_search List.not_mem_nil (by rwa [List.append_nil]) hhides
    · exact s.hides_of_search
  · intro scheme blanks hscheme hplain hblanks hblank
    obtain ⟨b, bs, rfl⟩ := List.exists_cons_of_ne_nil hblanks
    apply s.not_hides_of_search
    · intro hat
      rcases List.mem_append.mp hat with hat | hat
      · exact (hplain _ hat).2.2 rfl
      · exact absurd (hblank _ hat) (by decide)
    · exact s.search_second_word hscheme (fun c hc => (hplain c hc).1)
        (fun c hc => (hplain c hc).2.1) hblank

/-- A value right behind its separator is hidden, and so is one with a blank before it, unless the
name is itself the value of another secret. -/
theorem hides_iff_nested :
    let slot (before name : String) (pause : List Char) (hname : IsName name.toList)
        (hpause : ∀ c ∈ pause, isBlank c) : Slot := {
      before := before.toList, name := name.toList, separator := ':', pause := pause
      after := " in file".toList, isName := hname, gap_blank := List.forall_mem_nil _
      isSeparator := rfl, pause_blank := hpause, apart := fun _ hc => Option.some.inj hc ▸ rfl }
    have hpassword : IsName "PassWord".toList := ⟨"password".toList, by decide, by decide⟩
    have hheader : IsName "Authorization".toList := ⟨"authorization".toList, by decide, by decide⟩
    have hpause : ∀ c ∈ [' '], isBlank c := List.forall_mem_singleton.mpr rfl
    Hides (slot "token: " "PassWord" [] hpassword (List.forall_mem_nil _)).message ∧
      Hides (slot "token: x " "PassWord" [' '] hpassword hpause).message ∧
      ¬ Hides (slot "token: " "PassWord" [' '] hpassword hpause).message ∧
      ¬ Hides fun credentials => (slot "" "Authorization" [' '] hheader hpause).message
        ("Bearer".toList ++ [' '] ++ credentials) := by
  intro slot hpassword hheader hpause
  refine ⟨(hides_iff _).1.mpr (Or.inl ⟨rfl, rfl⟩), (hides_iff _).1.mpr (Or.inr ?_), fun h => ?_,
    (hides_iff _).2 _ _ (by decide) (List.forall_iff_forall_mem.mp (by decide)) (by decide) hpause⟩
  · decide +kernel
  · rcases (hides_iff _).1.mp h with ⟨-, hpause⟩ | hends
    · cases hpause
    · revert hends
      decide +kernel

/-- The credentials of a header are shown, and so is a value whose key is the value of another. -/
theorem not_hides_bearer :
    let slot (before name : String) (hname : IsName name.toList) : Slot := {
      before := before.toList, name := name.toList, separator := ':', pause := [' ']
      isName := hname, gap_blank := List.forall_mem_nil _, isSeparator := rfl
      pause_blank := List.forall_mem_singleton.mpr rfl
      apart := fun _ hc => absurd hc (Option.not_mem_none _) }
    have hheader : IsName "Authorization".toList := ⟨"authorization".toList, by decide, by decide⟩
    have hpassword : IsName "password".toList := ⟨"password".toList, by decide, by decide⟩
    sanitize messageLimit "Authorization: Bearer abc123" = "Authorization: <REDACTED> abc123" ∧
      (¬ Hides fun credentials =>
        (slot "" "Authorization" hheader).message ("Bearer ".toList ++ credentials)) ∧
      sanitize messageLimit "token: password: hunter2" = "token: <REDACTED> hunter2" ∧
      ¬ Hides (slot "token: " "password" hpassword).message := by
  intro slot hheader hpassword
  refine ⟨by decide +kernel, fun h => ?_, by decide +kernel, fun h => ?_⟩
  · have hsame := h "abc123".toList "def456".toList (by decide) (by decide) messageLimit
    revert hsame
    decide +kernel
  · have hsame := h "hunter2".toList "hunter3".toList (by decide) (by decide) messageLimit
    revert hsame
    decide +kernel

end AuthMap.Redact
