import AuthMap.Proofs.Store.Principal

/-! Edits of the records of two principals may change places, and so may calls about the two halves
of the texts: each of the two calls has the same answer, and the texts are the same in the end. -/

namespace AuthMap

theorem filter_eraseP_comm {α : Type} {f g : α → Bool} (h : ∀ x y, f x → f y → g x = g y)
    (xs : List α) : (xs.eraseP f).filter g = (xs.filter g).eraseP f := by
  induction xs with
  | nil => rfl
  | cons x xs ih =>
    by_cases hf : f x
    · rw [List.eraseP_cons_of_pos hf]
      by_cases hg : g x
      · rw [List.filter_cons_of_pos hg, List.eraseP_cons_of_pos hf]
      · rw [List.filter_cons_of_neg hg, List.eraseP_of_forall_not]
        intro y hy hfy
        exact hg ((h x y hf hfy).trans (List.mem_filter.mp hy).2)
    · rw [List.eraseP_cons_of_neg hf]
      by_cases hg : g x
      · rw [List.filter_cons_of_pos hg, List.filter_cons_of_pos hg, List.eraseP_cons_of_neg hf, ih]
      · rw [List.filter_cons_of_neg hg, List.filter_cons_of_neg hg, ih]

/-! ### What a removal leaves -/

namespace Identity

variable {p q : Principal}

/-- The records that are left when the first one for a principal is removed, or all of them. -/
def without (p : Principal) (all : Bool) (rs : List Identity) : List Identity :=
  if all then rs.filter fun x => !x.isFor p else rs.eraseP (·.isFor p)

theorem without_append (all : Bool) (rs : List Identity) {new : List Identity}
    (h : ∀ x ∈ new, ¬ x.isFor p) : without p all (rs ++ new) = without p all rs ++ new := by
  cases all with
  | true =>
    have hnew : (new.filter fun x => !x.isFor p) = new :=
      List.filter_eq_self.mpr fun x hx => by simpa using h x hx
    simp only [without, if_true, List.filter_append, hnew]
  | false =>
    simp only [without, Bool.false_eq_true, if_false, List.eraseP_append]
    split
    · rfl
    · next hnone =>
      have hrs : rs.eraseP (·.isFor p) = rs :=
        List.eraseP_of_forall_not fun x hx hfor => hnone (List.any_eq_true.mpr ⟨x, hx, hfor⟩)
      rw [hrs, List.eraseP_of_forall_not h]

theorem without_comm (hne : p.toText ≠ q.toText) (all all' : Bool) (rs : List Identity) :
    without q all' (without p all rs) = without p all (without q all' rs) := by
  have hp (x : Identity) (hx : x.isFor p) : ¬ x.isFor q := isFor_of_toText_ne hne.symm hx
  have hq (x : Identity) (hx : x.isFor q) : ¬ x.isFor p := isFor_of_toText_ne hne hx
  cases all <;> cases all' <;> simp only [without, if_true, Bool.false_eq_true, if_false]
  · apply List.eraseP_comm
    intro x _
    by_cases hx : x.isFor p
    · exact Or.inr (hp x hx)
    · exact Or.inl hx
  · exact filter_eraseP_comm (fun x y hx hy => by simp [hp x hx, hp y hy]) rs
  · exact (filter_eraseP_comm (fun x y hx hy => by simp [hq x hx, hq y hy]) rs).symm
  · exact List.filter_comm _ _ rs

/-- The records for a principal are of one kind. -/
theorem filter_without (k : Kind) (p : Principal) (all : Bool) (rs : List Identity) :
    (without p all rs).filter (fun x => x.kind = k) =
      without p all (rs.filter fun x => x.kind = k) := by
  cases all with
  | true => exact List.filter_comm _ _ rs
  | false =>
    apply filter_eraseP_comm
    intro x y hx hy
    rw [isFor_iff] at hx hy
    simp only [kind, hx, hy]

end Identity

namespace Call

open Identity (without)

variable {c d : Call} {p q : Principal} {r r' : Resource} {rs rs' : List Identity} {a b : Answer}

/-! ### Edits of one kind of records -/

inductive EditOf (p : Principal) : Call → Prop
  | add (username : Text) (groups : List Text) : EditOf p (.addIdentity p username groups)
  | remove (all : Bool) : EditOf p (.removeIdentity p all)

theorem EditOf.editsIdentities (h : c.EditOf p) : c.editsIdentities := by cases h <;> rfl

theorem kept_removeIdentity (p : Principal) (all : Bool) (a : Answer) (rs : List Identity) :
    (removeIdentity p all).kept a rs = without p all rs := by cases all <;> rfl

/-- What an edit makes of the records of one kind. -/
def keptOf (k : Kind) (c : Call) (a : Answer) (rs : List Identity) : List Identity :=
  match c, a with
  | .addIdentity _ _ _, .record record => rs ++ [record].filter fun x => x.kind = k
  | .removeIdentity p all, _ => without p all rs
  | _, _ => rs

theorem filter_kept (k : Kind) (h : c.EditOf p) (a : Answer) (rs : List Identity) :
    (c.kept a rs).filter (fun x => x.kind = k) = c.keptOf k a (rs.filter fun x => x.kind = k) := by
  cases h with
  | add username groups =>
    cases a with
    | record record => exact List.filter_append ..
    | _ => rfl
  | remove all =>
    rw [kept_removeIdentity]
    exact Identity.filter_without k p all rs

/-- A new record of one principal stays out of the way of a removal of another's. -/
theorem keptOf_add_remove {username : Text} {groups : List Text} (all : Bool)
    (ha : ∀ x, a = .record x → ¬ x.isFor q) (k : Kind) (rs : List Identity) :
    (removeIdentity q all).keptOf k b ((addIdentity p username groups).keptOf k a rs) =
      (addIdentity p username groups).keptOf k a ((removeIdentity q all).keptOf k b rs) := by
  cases a with
  | record record =>
    apply Identity.without_append
    intro x hx
    rw [List.mem_singleton.mp (List.mem_filter.mp hx).1]
    exact ha record rfl
  | _ => rfl

theorem keptOf_add_add {username username' : Text} {groups groups' : List Text}
    (hkinds : ∀ x y, a = .record x → b = .record y → x.kind ≠ y.kind) (k : Kind)
    (rs : List Identity) :
    (addIdentity q username' groups').keptOf k b ((addIdentity p username groups).keptOf k a rs) =
      (addIdentity p username groups).keptOf k a
        ((addIdentity q username' groups').keptOf k b rs) := by
  cases a with
  | record x =>
    cases b with
    | record y =>
      have hne := hkinds x y rfl rfl
      by_cases hx : x.kind = k
      · have hy : y.kind ≠ k := fun hy => hne (hx.trans hy.symm)
        simp [keptOf, hy]
      · simp [keptOf, hx]
    | _ => rfl
  | _ => rfl

/-! ### What an edit leaves to the others -/

theorem answer_addIdentity_of_stray {record : Identity} {username : Text} {groups : List Text}
    (hrecord : newIdentity p username groups = .ok record) (hkind : record.kind = .unknown)
    (hrs : r.identities = .ok rs) (hclassified : ∀ x ∈ rs, x.kind ≠ .unknown) (σ : Session) :
    (addIdentity p username groups).answer r σ = .error (.store record.unfiled) := by
  rw [answer_addIdentity hrecord hrs]
  rcases Snapshot.withRecords_cases (rs ++ [record]) { records := rs } with
    ⟨hkept, -⟩ | ⟨bad, hbad, hs⟩
  · exact absurd hkind (hkept record (by simp))
  · obtain rfl : bad = record := by
      rcases List.mem_append.mp hbad.mem with hmem | hmem
      · exact absurd hbad.kind (hclassified bad hmem)
      · exact List.mem_singleton.mp hmem
    rw [hs]
    rfl

/-- Where each record is a role or a user, the records of the principal decide. -/
theorem answer_congr (h : c.EditOf p) (hrs : r.identities = .ok rs)
    (hrs' : r'.identities = .ok rs') (hclassified : ∀ x ∈ rs, x.kind ≠ .unknown)
    (hclassified' : ∀ x ∈ rs', x.kind ≠ .unknown) (hget : r.get p = r'.get p) (σ σ' : Session) :
    c.answer r σ = c.answer r' σ' := by
  have hown : rs.filter (·.isFor p) = rs'.filter (·.isFor p) := by
    rw [Resource.get_eq hrs, Resource.get_eq hrs'] at hget
    exact Except.ok.inj hget
  cases h with
  | add username groups =>
    cases hnew : newIdentity p username groups with
    | error e => rw [answer_addIdentity_of_error hnew, answer_addIdentity_of_error hnew]
    | ok record =>
      by_cases hkind : record.kind = .unknown
      · rw [answer_addIdentity_of_stray hnew hkind hrs hclassified,
          answer_addIdentity_of_stray hnew hkind hrs' hclassified']
      · rw [(decidedBy_addIdentity hnew hkind hrs σ).accepted hclassified,
          (decidedBy_addIdentity hnew hkind hrs' σ').accepted hclassified']
  | remove all =>
    cases all with
    | true => rw [answer_removeAll hrs hclassified, answer_removeAll hrs' hclassified', hown]
    | false =>
      by_cases hnone : rs.filter (·.isFor p) = []
      · rw [answer_removeFirst_of_none hrs hnone, answer_removeFirst_of_none hrs' (hown ▸ hnone)]
      · rw [answer_removeFirst hrs hclassified hnone,
          answer_removeFirst hrs' hclassified' (hown ▸ hnone)]

theorem reassigned_of_answer {σ : Session} (h : c.EditOf p) (hrs : r.identities = .ok rs)
    (ha : c.answer r σ = .ok a) : ∃ own, r.Reassigned p own (c.next r) := by
  cases h with
  | add username groups =>
    obtain ⟨σ', hperform⟩ := perform_of_answer ha
    exact ⟨_, (reassigned_addIdentity hrs hperform).2⟩
  | remove all =>
    cases all with
    | true => exact ⟨_, reassigned_removeAll hrs ha⟩
    | false => exact ⟨_, reassigned_removeFirst hrs ha⟩

/-- What is left is again roles and users, and nothing of the other principals has changed. -/
theorem next_of_editOf (h : c.EditOf p) (hrs : r.identities = .ok rs)
    (hclassified : ∀ x ∈ rs, x.kind ≠ .unknown) :
    ∃ rs', (c.next r).identities = .ok rs' ∧ (∀ x ∈ rs', x.kind ≠ .unknown) ∧
      ∀ q : Principal, q.toText ≠ p.toText → (c.next r).get q = r.get q := by
  cases ha : c.answer r {} with
  | error t =>
    rw [next_of_refused ha]
    exact ⟨rs, hrs, hclassified, fun _ _ => rfl⟩
  | ok a =>
    obtain ⟨e, he, -⟩ := effect_of_answer ha
    obtain ⟨_, rs', -, hrs', hpartition⟩ := isStablePartition_next h.editsIdentities he
    obtain ⟨own, hreassigned⟩ := reassigned_of_answer h hrs ha
    exact ⟨rs', hrs', hpartition.classified, hreassigned.others⟩

theorem get?_next_of_notMem {key : String} (h : key ∉ c.half.keys) (r : Resource) :
    (c.next r).data.get? key = r.data.get? key := by
  obtain ⟨new, hnew, heq⟩ := exists_next_eq c r
  rw [heq]
  apply Data.get?_update_of_ne
  rintro e he rfl
  exact h (hnew e he)

/-- The records of each kind after an edit that is answered. -/
theorem next_of_answer_of_editOf {σ : Session} (h : c.EditOf p) (hrs : r.identities = .ok rs)
    (ha : c.answer r σ = .ok a) :
    ∃ s : Snapshot, c.next r = r.withIdentities s ∧
      ∀ k, (s.records.filter fun x => x.kind = k) =
        c.keptOf k a (rs.filter fun x => x.kind = k) := by
  obtain ⟨-, hnext⟩ := next_of_answer h.editsIdentities hrs ha
  exact ⟨_, hnext, fun k => filter_kept k h a rs⟩

theorem filter_kind_partitioned (s : Snapshot) {k : Kind} (hk : k ≠ .unknown) :
    (s.roles ++ s.users).filter (fun x => x.kind = k) = s.records.filter fun x => x.kind = k := by
  obtain ⟨hroles, husers⟩ := s.partitioned_roles
  cases k with
  | role => exact hroles
  | user => exact husers
  | unknown => exact absurd rfl hk

/-- What is left of a kind by one edit goes to the next one, and nothing else of it does. -/
theorem next_next_of_answer {σ σ' : Session} (hc : c.EditOf p) (hd : d.EditOf q)
    (hrs : r.identities = .ok rs) (ha : c.answer r σ = .ok a)
    (hb : d.answer (c.next r) σ' = .ok b) :
    ∃ s : Snapshot, d.next (c.next r) = (c.next r).withIdentities s ∧
      ∀ k, k ≠ .unknown → (s.records.filter fun x => x.kind = k) =
        d.keptOf k b (c.keptOf k a (rs.filter fun x => x.kind = k)) := by
  obtain ⟨s, hnext, hkinds⟩ := next_of_answer_of_editOf hc hrs ha
  have hread : (c.next r).identities = .ok (s.roles ++ s.users) := by
    rw [hnext]
    exact Resource.identities_withIdentities s r
  obtain ⟨s', hnext', hkinds'⟩ := next_of_answer_of_editOf hd hread hb
  refine ⟨s', hnext', fun k hk => ?_⟩
  rw [hkinds', filter_kind_partitioned s hk, hkinds]

/-! ### Calls that change places -/

/-- Two calls may change places: each is answered alike in the first place and in the second, and
the same texts are held in the end. -/
structure Interchange (c d : Call) (r : Resource) : Prop where
  answers : ∀ σ σ', (performAll [c, d] r σ).map (·.1) =
    ((performAll [d, c] r σ').map (·.1)).reverse
  texts : ∀ σ σ' key, (heldAfter [c, d] r σ).data.get? key = (heldAfter [d, c] r σ').data.get? key

theorem interchange_of_next (hc : ∀ σ σ', c.answer (d.next r) σ = c.answer r σ')
    (hd : ∀ σ σ', d.answer (c.next r) σ = d.answer r σ')
    (htexts : ∀ key, (d.next (c.next r)).data.get? key = (c.next (d.next r)).data.get? key) :
    Interchange c d r where
  answers σ σ' := by
    obtain ⟨σ₁, hrun⟩ := performAll_cons_eq c [d] r σ
    obtain ⟨σ₂, hlast⟩ := performAll_cons_eq d [] (c.next r) σ₁
    obtain ⟨σ₃, hrun'⟩ := performAll_cons_eq d [c] r σ'
    obtain ⟨σ₄, hlast'⟩ := performAll_cons_eq c [] (d.next r) σ₃
    rw [hrun, hlast, hrun', hlast', hd σ₁ σ', ← hc σ₃ σ]
    rfl
  texts σ σ' key := by
    rw [heldAfter_eq_foldl, heldAfter_eq_foldl]
    exact htexts key

theorem interchange_of_half_ne (h : c.half ≠ d.half) (r : Resource) : Interchange c d r := by
  have hc : c.half.texts (d.next r) = c.half.texts r := texts_next_of_ne h.symm
  have hd : d.half.texts (c.next r) = d.half.texts r := texts_next_of_ne h
  refine interchange_of_next (fun σ σ' => ?_) (fun σ σ' => ?_) fun key => ?_
  · rw [answer_eq, answer_eq, effect_congr hc]
  · rw [answer_eq, answer_eq, effect_congr hd]
  · by_cases hkey : key ∈ c.half.keys
    · have htexts : c.half.texts (d.next (c.next r)) = c.half.texts (c.next (d.next r)) :=
        (texts_next_of_ne h.symm).trans (texts_next_congr hc.symm)
      exact Half.texts_eq_iff.mp htexts key hkey
    · rw [get?_next_of_notMem hkey]
      by_cases hkey' : key ∈ d.half.keys
      · exact Half.texts_eq_iff.mp (texts_next_congr hd) key hkey'
      · rw [get?_next_of_notMem hkey', get?_next_of_notMem hkey', get?_next_of_notMem hkey]

/-- Where each record is a role or a user, edits for two principals change places if what they leave
of each kind does not depend on which is first. -/
theorem interchange_of_editOf (hc : c.EditOf p) (hd : d.EditOf q) (hne : p.toText ≠ q.toText)
    (hrs : r.identities = .ok rs) (hclassified : ∀ x ∈ rs, x.kind ≠ .unknown)
    (hkept : ∀ a b, c.answer r {} = .ok a → d.answer r {} = .ok b → ∀ k xs,
      d.keptOf k b (c.keptOf k a xs) = c.keptOf k a (d.keptOf k b xs)) : Interchange c d r := by
  obtain ⟨rs₁, hrs₁, hclassified₁, hget₁⟩ := next_of_editOf hc hrs hclassified
  obtain ⟨rs₂, hrs₂, hclassified₂, hget₂⟩ := next_of_editOf hd hrs hclassified
  have hc' := answer_congr hc hrs₂ hrs hclassified₂ hclassified (hget₂ p hne)
  have hd' := answer_congr hd hrs₁ hrs hclassified₁ hclassified (hget₁ q hne.symm)
  refine interchange_of_next hc' hd' fun key => ?_
  cases ha : c.answer r {} with
  | error t => rw [next_of_refused ha, next_of_refused ((hc' {} {}).trans ha)]
  | ok a =>
    cases hb : d.answer r {} with
    | error t => rw [next_of_refused hb, next_of_refused ((hd' {} {}).trans hb)]
    | ok b =>
      obtain ⟨s, hs, hkinds⟩ := next_next_of_answer hc hd hrs ha ((hd' {} {}).trans hb)
      obtain ⟨s', hs', hkinds'⟩ := next_next_of_answer hd hc hrs hb ((hc' {} {}).trans ha)
      have hsame (k : Kind) (hk : k ≠ .unknown) : (s.records.filter fun x => x.kind = k) =
          s'.records.filter fun x => x.kind = k := by
        rw [hkinds k hk, hkinds' k hk, hkept a b ha hb]
      have htexts : Half.identities.texts (d.next (c.next r)) =
          Half.identities.texts (c.next (d.next r)) := by
        rw [hs, hs']
        exact Resource.texts_withIdentities_congr ⟨hsame .role nofun, hsame .user nofun⟩
      by_cases hkey : key ∈ Half.identities.keys
      · exact Half.texts_eq_iff.mp htexts key hkey
      · have hkc : key ∉ c.half.keys := by cases hc <;> exact hkey
        have hkd : key ∉ d.half.keys := by cases hd <;> exact hkey
        simp only [get?_next_of_notMem hkc, get?_next_of_notMem hkd]

theorem record_of_answer {username : Text} {groups : List Text} {σ : Session}
    (hrs : r.identities = .ok rs) (ha : (addIdentity p username groups).answer r σ = .ok a) :
    a = .record ⟨p.toText, username, groups⟩ := by
  obtain ⟨σ', hperform⟩ := perform_of_answer ha
  exact (reassigned_addIdentity hrs hperform).1

/-- Where each record is a role or a user, an addition for one principal and a removal for another
may change places, and so may two removals; two additions may if the principals are of different
kinds. A call about the identities may always change places with one about the accounts. -/
theorem interchange_of_ne (r : Resource) :
    (∀ rs, decodeRecords r.data = .ok rs → (∀ x ∈ rs, x.kind ≠ .unknown) →
      ∀ p q : Principal, p.toText ≠ q.toText →
        (∀ username groups all,
          Interchange (addIdentity p username groups) (removeIdentity q all) r) ∧
        (∀ all all', Interchange (removeIdentity p all) (removeIdentity q all') r) ∧
        (Arn.kindOf p.toText ≠ Arn.kindOf q.toText → ∀ username groups username' groups',
          Interchange (addIdentity p username groups) (addIdentity q username' groups') r)) ∧
    ∀ c d : Call, c.half = .identities → d.half = .accounts → Interchange c d r := by
  refine ⟨fun rs hrs hclassified p q hne => ⟨?_, ?_, ?_⟩, fun c d hc hd => ?_⟩
  · intro username groups all
    refine interchange_of_editOf (.add username groups) (.remove all) hne hrs hclassified ?_
    intro a b ha hb k xs
    apply keptOf_add_remove
    intro x hx
    obtain rfl := Answer.record.inj (hx.symm.trans (record_of_answer hrs ha))
    exact Identity.isFor_of_toText_ne hne.symm (Identity.isFor_iff.mpr rfl)
  · intro all all'
    refine interchange_of_editOf (.remove all) (.remove all') hne hrs hclassified ?_
    intro a b ha hb k xs
    exact Identity.without_comm hne all all' xs
  · intro hkind username groups username' groups'
    refine interchange_of_editOf (.add username groups) (.add username' groups') hne hrs
      hclassified ?_
    intro a b ha hb k xs
    apply keptOf_add_add
    intro x y hx hy
    obtain rfl := Answer.record.inj (hx.symm.trans (record_of_answer hrs ha))
    obtain rfl := Answer.record.inj (hy.symm.trans (record_of_answer hrs hb))
    exact hkind
  · exact interchange_of_half_ne (by simp [hc, hd]) r

/-- One of the records of a user is filed among the roles, and the accounts cannot be read. -/
theorem interchange_of_ne_misfiled :
    let ann (username : Text) : Identity := ⟨"arn:aws:iam::1:user/ann", username, []⟩
    let ops : Identity := ⟨"arn:aws:iam::1:role/ops", "ops", []⟩
    let r : Resource := { data := (accountsKey, "[") :: identityTexts [ann "a", ops] [ann "b"] }
    let p : Principal := .text "arn:aws:iam::1:user/ann"
    let q : Principal := .text "arn:aws:iam::1:role/ops"
    decodeRecords r.data = .ok [ann "a", ops, ann "b"] ∧
      Interchange (removeIdentity p false) (removeIdentity q true) r ∧
      Interchange (addIdentity q "o" []) (addIdentity p "c" []) r ∧
      Interchange (find (.text "bob")) (addAccount "1") r := by
  intro ann ops r p q
  have hrs : decodeRecords r.data = .ok ([ann "a", ops] ++ [ann "b"]) :=
    decodeRecords_of_texts rfl rfl
  have hclassified : ∀ x ∈ [ann "a", ops] ++ [ann "b"], x.kind ≠ .unknown := by decide
  obtain ⟨hedits, hhalves⟩ := interchange_of_ne r
  have hremovals := (hedits _ hrs hclassified p q (by decide)).2.1
  have hadditions := (hedits _ hrs hclassified q p (by decide)).2.2
  exact ⟨hrs, hremovals false true, hadditions (by decide) _ _ _ _, hhalves _ _ rfl rfl⟩

end Call

end AuthMap
