import Mathlib.Data.List.TakeWhile
import AuthMap.Proofs.Redact.Search
import AuthMap.Redact

/-! Credentials in addresses. Nothing that a blank or the end of the text keeps from an at sign is
taken for credentials, whatever stands before it. -/

namespace AuthMap.Redact

variable {cs xs ys rest text : List Char} {n : Nat}

/-! ### Words -/

/-- The characters before the first blank. -/
def word (cs : List Char) : List Char := cs.takeWhile fun c => !Text.isBlank c

def pastWord (cs : List Char) : List Char := cs.dropWhile fun c => !Text.isBlank c

theorem word_append_pastWord (cs : List Char) : word cs ++ pastWord cs = cs :=
  List.takeWhile_append_dropWhile

theorem word_append (h : ∀ c ∈ xs, Text.isBlank c = false) (ys : List Char) :
    word (xs ++ ys) = xs ++ word ys :=
  List.takeWhile_append_of_pos fun c hc => by simp [h c hc]

theorem word_of_blank (h : ∀ c ∈ rest.head?, Text.isBlank c) : word rest = [] := by
  cases rest with
  | nil => rfl
  | cons c cs =>
    have hc : Text.isBlank c = true := h c rfl
    exact List.takeWhile_cons_of_neg (by simp [hc])

theorem pastWord_append (xs ys : List Char) :
    pastWord (xs ++ ys) = if pastWord xs = [] then pastWord ys else pastWord xs ++ ys := by
  rw [pastWord, List.dropWhile_append]
  simp only [List.isEmpty_iff]
  rfl

theorem prefix_word (h : xs <+: rest) (hxs : ∀ c ∈ xs, Text.isBlank c = false) :
    xs <+: word rest := by
  obtain ⟨ys, rfl⟩ := h
  rw [word_append hxs]
  exact List.prefix_append ..

/-! ### Addresses -/

theorem credentials?_eq_some : credentials? cs = some (n, text) ↔
    ∃ info more, cs = "://".toList ++ info ++ ['@'] ++ more ∧ (∀ c ∈ info, isUserInfo c) ∧
      hasInnerColon info ∧ n = info.length + 4 ∧ text = "://".toList ++ mark ++ ['@'] := by
  constructor
  · intro h
    unfold credentials? at h
    split at h
    · next cs =>
      obtain ⟨more, hmore⟩ := List.takeWhile_prefix (l := cs) isUserInfo
      have hdrop (info : List Char) (heq : info ++ more = cs) : cs.drop info.length = more := by
        rw [← heq, List.drop_left]
      simp only [hdrop _ hmore] at h
      split at h
      · next hfound =>
        obtain ⟨hinner, hhead⟩ := Bool.and_eq_true_iff.mp hfound
        obtain ⟨more', rfl⟩ := List.head?_eq_some_iff.mp (of_decide_eq_true hhead)
        cases h
        exact ⟨_, more', by simp [hmore], List.all_eq_true.mp List.all_takeWhile, hinner, rfl, rfl⟩
      · cases h
    · cases h
  · rintro ⟨info, more, rfl, hinfo, hinner, rfl, rfl⟩
    have hat : isUserInfo '@' = false := by decide
    have htake : (info ++ '@' :: more).takeWhile isUserInfo = info := by
      rw [List.takeWhile_append_of_pos hinfo, List.takeWhile_cons_of_neg (by simp [hat]),
        List.append_nil]
    have hstart : "://".toList ++ info ++ ['@'] ++ more =
        ':' :: '/' :: '/' :: (info ++ '@' :: more) := by simp
    rw [hstart, credentials?]
    simp only [htake, hinner, List.drop_left, List.head?_cons, decide_true, Bool.and_self, if_true]

theorem length_le_of_credentials? (h : credentials? cs = some (n, text)) : n ≤ cs.length := by
  obtain ⟨info, more, rfl, -, -, rfl, -⟩ := credentials?_eq_some.mp h
  simp

theorem isBlank_of_userInfo {info : List Char} (h : ∀ c ∈ info, isUserInfo c) :
    ∀ c ∈ "://".toList ++ info ++ ['@'], Text.isBlank c = false := by
  have hstart : ∀ c ∈ "://".toList, Text.isBlank c = false :=
    List.forall_iff_forall_mem.mp (by decide)
  have hinfo : ∀ c ∈ info, Text.isBlank c = false := by
    intro c hc
    have huser := h c hc
    simp only [isUserInfo, Bool.and_eq_true, Bool.not_eq_true'] at huser
    exact huser.2
  intro c hc
  rcases List.mem_append.mp hc with hc | hc
  · exact (List.mem_append.mp hc).elim (hstart c) (hinfo c)
  · rw [List.mem_singleton.mp hc]
    decide

theorem credentials?_append (h : '@' ∉ word rest) (ys : List Char) :
    credentials? (ys ++ rest) = credentials? ys := by
  ext ⟨n, text⟩
  rw [credentials?_eq_some, credentials?_eq_some]
  constructor
  · rintro ⟨info, more, heq, hinfo, hfound⟩
    have hwhole : "://".toList ++ info ++ ['@'] <+: ys ++ rest := ⟨more, heq.symm⟩
    rcases List.prefix_or_prefix_of_prefix hwhole (List.prefix_append ys rest) with hle | hle
    · obtain ⟨more', rfl⟩ := hle
      exact ⟨info, more', rfl, hinfo, hfound⟩
    · obtain ⟨extra, hextra⟩ := hle
      by_cases hnil : extra = []
      · subst hnil
        exact ⟨info, [], by rw [← hextra]; simp, hinfo, hfound⟩
      · -- what reaches into the rest has no blank, so that its at sign is in the first word
        have hblank : ∀ c ∈ extra, Text.isBlank c = false := fun c hc =>
          isBlank_of_userInfo hinfo c (hextra ▸ List.mem_append_right ys hc)
        have hrest : extra ++ more = rest := by
          rw [← hextra, List.append_assoc] at heq
          exact (List.append_cancel_left heq).symm
        have hat : '@' ∈ extra := by
          have hlast : ['@'] <:+ ys ++ extra := hextra ▸ List.suffix_append ..
          rcases List.suffix_or_suffix_of_suffix hlast (List.suffix_append ys extra) with hle | hle
          · exact hle.subset List.mem_cons_self
          · rcases List.suffix_cons_iff.mp hle with rfl | hle
            · exact List.mem_cons_self
            · exact absurd (List.suffix_nil.mp hle) hnil
        exact absurd ((prefix_word ⟨more, hrest⟩ hblank).subset hat) h
  · rintro ⟨info, more, rfl, hfound⟩
    exact ⟨info, more ++ rest, List.append_assoc .., hfound⟩

theorem credentials?_of_notMem (h : '@' ∉ word cs) : credentials? cs = none :=
  credentials?_append h []

theorem notMem_word_append {c : Char} (hxs : c ∉ xs) (hrest : ∀ c ∈ rest.head?, Text.isBlank c) :
    c ∉ word (xs ++ rest) := by
  rw [word, List.takeWhile_append]
  split
  · rw [← word, word_of_blank hrest, List.append_nil]
    exact hxs
  · exact fun hc => hxs ((List.takeWhile_prefix _).subset hc)

/-- Around a text without an at sign that goes up to a blank, each part is searched as though it
were alone. -/
theorem replaceFrom_credentials (hxs : '@' ∉ xs) (hrest : ∀ c ∈ rest.head?, Text.isBlank c)
    (before : List Char) :
    Text.replaceFrom credentials? 0 (before ++ (xs ++ rest)) =
      Text.replaceFrom credentials? 0 before ++
        (xs ++ Text.replaceFrom credentials? 0 rest) := by
  have hbefore := Text.search_of_local
    (fun _ _ _ h => length_le_of_credentials? h)
    (fun ys _ _ => credentials?_append (notMem_word_append hxs hrest) ys)
    (Nat.zero_le before.length)
  have hmiddle : Text.search credentials? rest 0 xs = (xs, 0) := by
    apply Text.search_of_none
    intro ys hys _
    exact credentials?_of_notMem (notMem_word_append (mt (hys.subset ·) hxs) hrest)
  rw [Text.replaceFrom_append, hbefore, Text.replaceFrom_append, hmiddle]

theorem replaceFrom_credentials_head? (h : ∀ c ∈ rest.head?, Text.isBlank c) :
    ∀ c ∈ (Text.replaceFrom credentials? 0 rest).head?, Text.isBlank c := by
  cases rest with
  | nil => exact h
  | cons c cs =>
    rw [Text.replaceFrom_of_none (credentials?_of_notMem (by simp [word_of_blank h]))]
    exact h

/-! ### Texts without credentials -/

/-- A user and a password, as they stand before the host of an address. -/
inductive IsAddress : List Char → Prop where
  | intro {user password : List Char} (huser : user ≠ []) (hpassword : password ≠ [])
    (hplain : ∀ c ∈ user ++ password, c ≠ '@' ∧ c ≠ '/' ∧ Text.isBlank c = false) :
    IsAddress ("://".toList ++ user ++ [':'] ++ password ++ ['@'])

theorem hasInnerColon_iff {info : List Char} : hasInnerColon info ↔
    ∃ user password, info = user ++ [':'] ++ password ∧ user ≠ [] ∧ password ≠ [] := by
  rw [hasInnerColon, List.contains_iff_mem]
  constructor
  · intro h
    cases info with
    | nil => simp at h
    | cons a as =>
      have hne : as ≠ [] := by
        rintro rfl
        simp at h
      rw [List.dropLast_cons_of_ne_nil hne, List.tail_cons] at h
      obtain ⟨user, password, hsplit⟩ := List.append_of_mem h
      refine ⟨a :: user, password ++ [as.getLast hne], ?_, by simp, by simp⟩
      have hall : as = user ++ ':' :: password ++ [as.getLast hne] := by
        rw [← hsplit, List.dropLast_concat_getLast]
      simpa using hall
  · rintro ⟨user, password, rfl, huser, hpassword⟩
    obtain ⟨a, user, rfl⟩ := List.exists_cons_of_ne_nil huser
    rw [List.dropLast_append_of_ne_nil hpassword]
    simp

theorem isUserInfo_iff {c : Char} : isUserInfo c ↔ c ≠ '@' ∧ c ≠ '/' ∧ Text.isBlank c = false := by
  simp [isUserInfo, and_assoc]

theorem credentials?_eq_none_iff :
    credentials? cs = none ↔ ∀ xs, xs <+: cs → ¬ IsAddress xs := by
  constructor
  · rintro h _ ⟨more, rfl⟩ ⟨huser, hpassword, hplain⟩
    rename_i user password
    have hinfo : ∀ c ∈ user ++ [':'] ++ password, isUserInfo c := by
      intro c hc
      by_cases hcolon : c = ':'
      · rw [hcolon]
        decide
      · exact isUserInfo_iff.mpr (hplain c (by simpa [hcolon] using hc))
    have hfound := credentials?_eq_some.mpr ⟨user ++ [':'] ++ password, more, rfl, hinfo,
      hasInnerColon_iff.mpr ⟨user, password, rfl, huser, hpassword⟩, rfl, rfl⟩
    simp only [← List.append_assoc] at hfound h
    rw [h] at hfound
    cases hfound
  · intro h
    cases hfound : credentials? cs with
    | none => rfl
    | some found =>
      obtain ⟨info, more, rfl, hinfo, hinner, -⟩ := credentials?_eq_some.mp hfound
      obtain ⟨user, password, rfl, huser, hpassword⟩ := hasInnerColon_iff.mp hinner
      refine absurd (IsAddress.intro huser hpassword fun c hc => ?_) (h _ ⟨more, ?_⟩)
      · exact isUserInfo_iff.mp (hinfo c (by
          rcases List.mem_append.mp hc with hc | hc <;> simp [hc]))
      · simp only [← List.append_assoc]

/-- No credentials begin anywhere in a text. -/
def Free (cs : List Char) : Prop := ∀ ys, ys <:+ cs → credentials? ys = none

theorem free_iff : Free cs ↔ ∀ xs, xs <:+: cs → ¬ IsAddress xs := by
  constructor
  · intro h xs hxs
    obtain ⟨ys, hpre, hsuf⟩ := List.infix_iff_prefix_suffix.mp hxs
    exact credentials?_eq_none_iff.mp (h ys hsuf) xs hpre
  · intro h ys hys
    exact credentials?_eq_none_iff.mpr fun xs hxs => h xs (hxs.isInfix.trans hys.isInfix)

theorem Free.of_isPrefix (h : Free cs) (hxs : xs <+: cs) : Free xs :=
  free_iff.mpr fun zs hzs => free_iff.mp h zs (hzs.trans hxs.isInfix)

theorem free_append (h : Free rest)
    (hxs : ∀ ys, ys <:+ xs → ys ≠ [] → credentials? (ys ++ rest) = none) : Free (xs ++ rest) := by
  intro zs hzs
  by_cases hle : zs <:+ rest
  · exact h zs hle
  · obtain ⟨ys, rfl⟩ :=
      (List.suffix_or_suffix_of_suffix hzs (List.suffix_append xs rest)).resolve_left hle
    refine hxs ys ((List.suffix_append_inj_of_length_eq rfl).mp hzs).1 ?_
    rintro rfl
    exact hle List.suffix_rfl

theorem free_nil : Free [] := fun ys hys => by
  rw [List.suffix_nil.mp hys]
  rfl

theorem Free.tail {c : Char} (h : Free (c :: cs)) : Free cs := fun ys hys =>
  h ys (hys.trans (List.suffix_cons c cs))

theorem free_cons {c : Char} (hc : credentials? (c :: cs) = none) (h : Free cs) :
    Free (c :: cs) := by
  intro ys hys
  rcases List.suffix_cons_iff.mp hys with rfl | hys
  · exact hc
  · exact h ys hys

theorem IsAddress.exists_rest (h : IsAddress xs) :
    ∃ rest, xs = ':' :: '/' :: '/' :: (rest ++ ['@']) ∧ '/' ∉ rest := by
  obtain @⟨user, password, -, -, hplain⟩ := h
  refine ⟨user ++ [':'] ++ password, by simp, fun hc => ?_⟩
  simp only [List.mem_append, List.mem_singleton] at hc hplain
  rcases hc with (hc | hc) | hc
  · exact (hplain _ (Or.inl hc)).2.1 rfl
  · cases hc
  · exact (hplain _ (Or.inr hc)).2.1 rfl

/-- Credentials do not reach over the place where an address begins. -/
theorem credentials?_address {ys ys' : List Char} (hxs : xs ≠ [])
    (h : credentials? (xs ++ ':' :: '/' :: '/' :: ys) = none) :
    credentials? (xs ++ ':' :: '/' :: '/' :: ys') = none := by
  rw [credentials?_eq_none_iff] at h ⊢
  intro zs hzs haddress
  suffices hle : zs <+: xs from h zs (hle.trans (List.prefix_append ..)) haddress
  rcases List.prefix_or_prefix_of_prefix hzs (List.prefix_append ..) with hle | ⟨extra, rfl⟩
  · exact hle
  obtain ⟨rest, heq, hslash⟩ := haddress.exists_rest
  have hextra := (List.prefix_append_right_inj xs).mp hzs
  match xs, extra with
  | [], _ => exact absurd rfl hxs
  | _, [] => rw [List.append_nil]
  | [_], _ :: _ =>
    obtain ⟨rfl, -⟩ := List.cons_prefix_cons.mp hextra
    simp at heq
  | [_, _], _ :: _ =>
    obtain ⟨rfl, -⟩ := List.cons_prefix_cons.mp hextra
    simp at heq
  | _ :: _ :: _ :: xs, d :: extra =>
    exfalso
    obtain ⟨rfl, hslashes⟩ := List.cons_prefix_cons.mp hextra
    simp only [List.cons_append, List.cons.injEq] at heq
    -- the colon is not the at sign at the end, so that there is a slash behind it
    cases extra with
    | nil =>
      have hlast := (List.append_inj' heq.2.2.2 rfl).2
      cases hlast
    | cons e extra =>
      obtain ⟨rfl, -⟩ := List.cons_prefix_cons.mp hslashes
      have hmem : '/' ∈ rest ++ ['@'] := heq.2.2.2 ▸ by simp
      simp [hslash] at hmem

theorem mark_address_eq : "://".toList ++ mark ++ ['@'] = ':' :: '/' :: '/' :: (mark ++ ['@']) := by
  decide

@[elab_as_elim]
theorem credentials_induction {motive : List Char → Prop} (nil : motive [])
    (pass : ∀ c cs, credentials? (c :: cs) = none → motive cs → motive (c :: cs))
    (found : ∀ info rest, credentials? (':' :: '/' :: '/' :: info ++ rest) =
      some (info.length + 3, ':' :: '/' :: '/' :: (mark ++ ['@'])) → motive rest →
        motive (':' :: '/' :: '/' :: info ++ rest)) (cs : List Char) : motive cs := by
  refine Text.search_induction (fun cs n text h => ?_) nil pass (fun xs rest text _ h ih => ?_) cs
  · obtain ⟨info, more, rfl, -, -, rfl, -⟩ := credentials?_eq_some.mp h
    exact ⟨Nat.succ_pos _, by simp⟩
  · obtain ⟨info, more, heq, -, -, hlength, rfl⟩ := credentials?_eq_some.mp h
    obtain ⟨rfl, rfl⟩ := List.append_inj heq (by rw [hlength]; simp)
    have hstart : "://".toList ++ info ++ ['@'] = ':' :: '/' :: '/' :: (info ++ ['@']) := by simp
    rw [mark_address_eq, hstart] at h
    rw [hstart]
    exact found (info ++ ['@']) rest (by simpa using h) ih

/-- Up to the address of the first credentials that are found, a text is left as it is. -/
theorem replaceFrom_credentials_cases (cs : List Char) :
    Text.replaceFrom credentials? 0 cs = cs ∨ ∃ xs ys ys', cs = xs ++ ':' :: '/' :: '/' :: ys ∧
      Text.replaceFrom credentials? 0 cs = xs ++ ':' :: '/' :: '/' :: ys' := by
  induction cs using credentials_induction with
  | nil => exact Or.inl rfl
  | pass c cs h ih =>
    rw [Text.replaceFrom_of_none h]
    rcases ih with heq | ⟨xs, ys, ys', hcs, heq⟩
    · exact Or.inl (congrArg (c :: ·) heq)
    · exact Or.inr ⟨c :: xs, ys, ys', congrArg (c :: ·) hcs, congrArg (c :: ·) heq⟩
  | found info rest h ih =>
    refine Or.inr ⟨[], info ++ rest, mark ++ ['@'] ++ Text.replaceFrom credentials? 0 rest, rfl, ?_⟩
    rw [Text.replaceFrom_append_of_some (List.cons_ne_nil _ _) h]
    rfl

theorem credentials?_of_ne_colon {c : Char} (hc : c ≠ ':') (cs : List Char) :
    credentials? (c :: cs) = none := by
  unfold credentials?
  split
  · next h => exact absurd (List.cons.inj h).1 hc
  · rfl

theorem credentials?_mark (rest : List Char) :
    credentials? (':' :: '/' :: '/' :: (mark ++ ['@']) ++ rest) = none := by
  have hmark : ∀ c ∈ mark, isUserInfo c := List.forall_iff_forall_mem.mp (by decide)
  have htake : (mark ++ '@' :: rest).takeWhile isUserInfo = mark := by
    rw [List.takeWhile_append_of_pos hmark, List.takeWhile_cons_of_neg (by decide), List.append_nil]
  have hinner : hasInnerColon mark = false := by decide
  have hstart : ':' :: '/' :: '/' :: (mark ++ ['@']) ++ rest =
      ':' :: '/' :: '/' :: (mark ++ '@' :: rest) := by simp
  rw [hstart, credentials?]
  simp only [htake, hinner, Bool.false_and, Bool.false_eq_true, if_false]

/-- A mark is no credentials, and none come up around it. -/
theorem free_replaceFrom_credentials (cs : List Char) :
    Free (Text.replaceFrom credentials? 0 cs) := by
  induction cs using credentials_induction with
  | nil => exact free_nil
  | pass c cs h ih =>
    rw [Text.replaceFrom_of_none h]
    refine free_cons ?_ ih
    rcases replaceFrom_credentials_cases cs with heq | ⟨xs, ys, ys', hcs, heq⟩
    · rwa [heq]
    · rw [heq, ← List.cons_append]
      rw [hcs, ← List.cons_append] at h
      exact credentials?_address (List.cons_ne_nil c xs) h
  | found info rest h ih =>
    rw [Text.replaceFrom_append_of_some (List.cons_ne_nil _ _) h]
    refine free_append ih fun ys hys hne => ?_
    rcases List.suffix_cons_iff.mp hys with rfl | hys
    · exact credentials?_mark _
    · obtain ⟨c, ys, rfl⟩ := List.exists_cons_of_ne_nil hne
      have hother : ∀ c ∈ '/' :: '/' :: (mark ++ ['@']), c ≠ ':' :=
        List.forall_iff_forall_mem.mp (by decide)
      exact credentials?_of_ne_colon (hother c (hys.subset List.mem_cons_self)) _

end AuthMap.Redact
