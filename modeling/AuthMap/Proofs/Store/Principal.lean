import AuthMap.Proofs.Store.Refusal

/-! What an edit of the identities does to the records of one principal, and that it leaves those of
the others alone. Two principals with the same text are one. -/

namespace AuthMap

/-! ### The first element is removed -/

section Lists

variable {α : Type} {f g : α → Bool}

theorem filter_eraseP_self (f : α → Bool) (xs : List α) :
    (xs.eraseP f).filter f = (xs.filter f).tail := by
  induction xs with
  | nil => rfl
  | cons x xs ih =>
    by_cases hx : f x
    · rw [List.eraseP_cons_of_pos hx, List.filter_cons_of_pos hx, List.tail_cons]
    · rw [List.eraseP_cons_of_neg hx, List.filter_cons_of_neg hx, List.filter_cons_of_neg hx, ih]

theorem filter_eraseP_of_disjoint (hfg : ∀ x, f x → ¬ g x) (xs : List α) :
    (xs.eraseP f).filter g = xs.filter g := by
  induction xs with
  | nil => rfl
  | cons x xs ih =>
    by_cases hx : f x
    · rw [List.eraseP_cons_of_pos hx, List.filter_cons_of_neg (hfg x hx)]
    · rw [List.eraseP_cons_of_neg hx, List.filter_cons, List.filter_cons, ih]

/-- To remove the only one is to remove all. -/
theorem eraseP_eq_filter_of_singleton {x : α} {xs : List α} (h : xs.filter f = [x]) :
    xs.eraseP f = xs.filter fun y => !f y := by
  have hnone : (xs.eraseP f).filter f = [] := by rw [filter_eraseP_self, h, List.tail_cons]
  have hself : ((xs.eraseP f).filter fun y => !f y) = xs.eraseP f := by
    apply List.filter_eq_self.mpr
    intro y hy
    simpa using List.filter_eq_nil_iff.mp hnone y hy
  rw [← hself]
  exact filter_eraseP_of_disjoint (by simp) xs

end Lists

/-! ### Records of one principal -/

namespace Snapshot

theorem filter_roles (f : Identity → Bool) (s : Snapshot) :
    s.roles.filter f = roles { records := s.records.filter f } := List.filter_comm ..

theorem filter_users (f : Identity → Bool) (s : Snapshot) :
    s.users.filter f = users { records := s.records.filter f } := List.filter_comm ..

/-- The records of a principal are of one kind, so that they keep their order when roles are put
before users. -/
theorem filter_isFor_partitioned {s : Snapshot} (h : s.Classified) (p : Principal) :
    (s.roles ++ s.users).filter (·.isFor p) = s.records.filter (·.isFor p) := by
  have hkind : ∀ x ∈ s.records.filter (·.isFor p), x.kind = Arn.kindOf p.toText := by
    intro x hx
    have harn : x.arn = p.toText := Identity.isFor_iff.mp (List.mem_filter.mp hx).2
    rw [Identity.kind, harn]
  rw [List.filter_append, filter_roles, filter_users, roles, users]
  cases hp : Arn.kindOf p.toText with
  | role =>
    rw [hp] at hkind
    rw [filter_kind_eq_self hkind, filter_kind_eq_nil (by decide) hkind, List.append_nil]
  | user =>
    rw [hp] at hkind
    rw [filter_kind_eq_self hkind, filter_kind_eq_nil (by decide) hkind, List.nil_append]
  | unknown =>
    rw [hp] at hkind
    have hnone : s.records.filter (·.isFor p) = [] := by
      apply List.eq_nil_iff_forall_not_mem.mpr
      intro x hx
      exact h x (List.mem_filter.mp hx).1 (hkind x hx)
    rw [hnone]
    rfl

/-- What is left of each kind does not depend on whether roles had been put before users. -/
theorem roles_filter_partitioned (f : Identity → Bool) (s : Snapshot) :
    roles { records := s.partitioned.records.filter f } = roles { records := s.records.filter f } ∧
      users { records := s.partitioned.records.filter f } =
        users { records := s.records.filter f } := by
  obtain ⟨hroles, husers⟩ := s.partitioned_roles
  constructor
  · rw [← filter_roles, ← filter_roles, hroles]
  · rw [← filter_users, ← filter_users, husers]

end Snapshot

namespace Resource

variable {r r' : Resource} {rs : List Identity}

theorem get_eq (h : r.identities = .ok rs) (p : Principal) :
    r.get p = .ok (rs.filter (·.isFor p)) := by
  rw [Resource.get, Call.identitySnapshot_eq, h]
  rfl

theorem get_congr (h : r.identities = r'.identities) (p : Principal) : r.get p = r'.get p := by
  rw [get, get, Call.identitySnapshot_eq, Call.identitySnapshot_eq, h]

theorem get_withIdentities {kept : List Identity}
    (h : Snapshot.Classified { records := kept }) (p : Principal) (r : Resource) :
    (r.withIdentities { records := kept }).get p = .ok (kept.filter (·.isFor p)) := by
  rw [get_eq (identities_withIdentities _ r), Snapshot.filter_isFor_partitioned h]

theorem texts_withIdentities_congr {s s' : Snapshot}
    (h : s.roles = s'.roles ∧ s.users = s'.users) :
    Half.identities.texts (r.withIdentities s) = Half.identities.texts (r'.withIdentities s') := by
  simp only [Half.texts, Half.keys, List.map_cons, List.map_nil, get?_withIdentities, h.1, h.2]

/-- One principal has these records now, and every other one those that it had. -/
structure Reassigned (p : Principal) (own : List Identity) (r r' : Resource) : Prop where
  own : r'.get p = .ok own
  others : ∀ q : Principal, q.toText ≠ p.toText → r'.get q = r.get q

theorem reassigned_withIdentities {kept own : List Identity} {p : Principal}
    (h : r.identities = .ok rs) (hkept : Snapshot.Classified { records := kept })
    (hown : kept.filter (·.isFor p) = own)
    (hothers : ∀ q : Principal, q.toText ≠ p.toText →
      kept.filter (·.isFor q) = rs.filter (·.isFor q)) :
    Reassigned p own r (r.withIdentities { records := kept }) where
  own := by rw [get_withIdentities hkept, hown]
  others q hq := by rw [get_withIdentities hkept, get_eq h, hothers q hq]

end Resource

namespace Identity

variable {p q : Principal} {x : Identity}

theorem isFor_of_toText_ne (hq : q.toText ≠ p.toText) (h : x.isFor p) : ¬ x.isFor q := by
  intro hfor
  exact hq ((isFor_iff.mp hfor).symm.trans (isFor_iff.mp h))

end Identity

namespace Call

variable {r r' : Resource} {rs : List Identity} {p : Principal} {a : Answer} {σ σ' : Session}

/-! ### One edit -/

theorem reassigned_addIdentity {username : Text} {groups : List Text}
    (hrs : r.identities = .ok rs)
    (h : (addIdentity p username groups).perform r σ = .ok (a, r') σ') :
    a = .record ⟨p.toText, username, groups⟩ ∧
      r.Reassigned p (rs.filter (·.isFor p) ++ [⟨p.toText, username, groups⟩]) r' := by
  obtain ⟨ha, rfl⟩ := perform_eq_ok h
  obtain ⟨hkept, hnext⟩ := next_of_answer rfl hrs ha
  obtain ⟨record, hrecord, rfl⟩ : ∃ record, newIdentity p username groups = .ok record ∧
      a = .record record := by
    obtain ⟨e, he, rfl⟩ := effect_of_answer ha
    simp only [effect, Except.bind_eq_ok, StoreError.lift_eq_ok] at he
    obtain ⟨record, hrecord, held, -, s, -, he⟩ := he
    cases he
    exact ⟨record, hrecord, rfl⟩
  obtain ⟨-, rfl⟩ := newIdentity_eq_ok.mp hrecord
  have hown : Identity.isFor p ⟨p.toText, username, groups⟩ := Identity.isFor_iff.mpr rfl
  refine ⟨rfl, hnext ▸ Resource.reassigned_withIdentities hrs hkept ?_ ?_⟩
  · rw [kept, List.filter_append, List.filter_cons_of_pos hown, List.filter_nil]
  · intro q hq
    have hother := Identity.isFor_of_toText_ne hq hown
    rw [kept, List.filter_append, List.filter_cons_of_neg hother, List.filter_nil, List.append_nil]

/-- Whether or not there are records to remove, those of the principal are then gone. -/
theorem answer_removeAll (hrs : r.identities = .ok rs) (hclassified : ∀ x ∈ rs, x.kind ≠ .unknown)
    (p : Principal) (σ : Session) :
    (removeIdentity p true).answer r σ = .ok (.count (rs.filter (·.isFor p)).length) := by
  have hdecided := decidedBy_removeIdentity_all hrs p σ
  rw [List.countP_eq_length_filter] at hdecided
  apply hdecided.accepted
  intro x hx
  exact hclassified x (List.mem_filter.mp hx).1

theorem answer_removeFirst (hrs : r.identities = .ok rs)
    (hclassified : ∀ x ∈ rs, x.kind ≠ .unknown) (hown : rs.filter (·.isFor p) ≠ []) (σ : Session) :
    (removeIdentity p false).answer r σ = .ok (.count 1) := by
  obtain ⟨y, hy⟩ := List.exists_mem_of_ne_nil _ hown
  obtain ⟨hy, hfor⟩ := List.mem_filter.mp hy
  obtain ⟨x, before, after, hbefore, hx, rfl, -⟩ := List.exists_of_eraseP hy hfor
  have hdecided := decidedBy_removeIdentity_first hrs
    (fun z hz => mt Identity.isFor_iff.mpr (hbefore z hz)) (Identity.isFor_iff.mp hx) σ
  apply hdecided.accepted
  intro z hz
  apply hclassified
  rw [List.mem_append] at hz ⊢
  exact hz.imp id (List.mem_cons_of_mem x)

theorem answer_removeFirst_of_none (hrs : r.identities = .ok rs)
    (hown : rs.filter (·.isFor p) = []) (σ : Session) :
    (removeIdentity p false).answer r σ = .error (.store (.identityNotFound p.toText)) := by
  apply answer_removeIdentity_of_absent hrs
  intro x hx
  exact mt Identity.isFor_iff.mpr (List.filter_eq_nil_iff.mp hown x hx)

theorem reassigned_removeAll (hrs : r.identities = .ok rs)
    (h : (removeIdentity p true).answer r σ = .ok a) :
    r.Reassigned p [] ((removeIdentity p true).next r) := by
  obtain ⟨hkept, hnext⟩ := next_of_answer rfl hrs h
  rw [hnext]
  apply Resource.reassigned_withIdentities hrs hkept
  · simp [kept]
  · intro q hq
    rw [kept, List.filter_filter]
    apply List.filter_congr
    intro x _
    by_cases hx : x.isFor p
    · simp [hx, Identity.isFor_of_toText_ne hq hx]
    · simp [hx]

theorem reassigned_removeFirst (hrs : r.identities = .ok rs)
    (h : (removeIdentity p false).answer r σ = .ok a) :
    r.Reassigned p (rs.filter (·.isFor p)).tail ((removeIdentity p false).next r) := by
  obtain ⟨hkept, hnext⟩ := next_of_answer rfl hrs h
  rw [hnext]
  apply Resource.reassigned_withIdentities hrs hkept
  · exact filter_eraseP_self _ rs
  · intro q hq
    exact filter_eraseP_of_disjoint (fun x => Identity.isFor_of_toText_ne hq) rs

/-! ### Records removed one after the other -/

/-- What a first removal leaves: one record fewer, and in the end the same texts. -/
theorem next_removeFirst (hrs : r.identities = .ok rs) (hclassified : ∀ x ∈ rs, x.kind ≠ .unknown)
    (hown : rs.filter (·.isFor p) ≠ []) :
    ∃ left, ((removeIdentity p false).next r).identities = .ok left ∧
      (∀ x ∈ left, x.kind ≠ .unknown) ∧
      left.filter (·.isFor p) = (rs.filter (·.isFor p)).tail ∧
      Half.identities.texts (((removeIdentity p false).next r).withIdentities
        { records := left.filter fun x => !x.isFor p }) =
      Half.identities.texts (r.withIdentities { records := rs.filter fun x => !x.isFor p }) := by
  obtain ⟨hkept, hnext⟩ := next_of_answer rfl hrs (answer_removeFirst hrs hclassified hown {})
  let s : Snapshot := { records := rs.eraseP (·.isFor p) }
  have hs : s.Classified := hkept
  refine ⟨s.partitioned.records, ?_, s.partitioned_partitioned.classified, ?_, ?_⟩
  · rw [hnext]
    exact Resource.identities_withIdentities s r
  · exact (Snapshot.filter_isFor_partitioned hs p).trans (filter_eraseP_self _ rs)
  · apply Resource.texts_withIdentities_congr
    have hrest : (s.records.filter fun x => !x.isFor p) = rs.filter fun x => !x.isFor p :=
      filter_eraseP_of_disjoint (by simp) rs
    rw [← hrest]
    exact s.roles_filter_partitioned _

theorem answers_removals {k : Nat} (hrs : r.identities = .ok rs)
    (hclassified : ∀ x ∈ rs, x.kind ≠ .unknown) (hk : (rs.filter (·.isFor p)).length = k)
    (σ : Session) :
    (performAll (List.replicate (k + 1) (removeIdentity p false)) r σ).map (·.1) =
      List.replicate k (.ok (.count 1)) ++ [.error (.store (.identityNotFound p.toText))] := by
  induction k generalizing r rs σ with
  | zero =>
    obtain ⟨σ', hrun⟩ := performAll_cons_eq (removeIdentity p false) [] r σ
    have hnone := answer_removeFirst_of_none hrs (List.length_eq_zero_iff.mp hk) σ
    rw [List.replicate_one, hrun, hnone]
    rfl
  | succ k ih =>
    obtain ⟨σ', hrun⟩ := performAll_cons_eq (removeIdentity p false)
      (List.replicate (k + 1) (removeIdentity p false)) r σ
    have hown : rs.filter (·.isFor p) ≠ [] := List.ne_nil_of_length_eq_add_one hk
    obtain ⟨left, hleft, hkinds, htail, -⟩ := next_removeFirst hrs hclassified hown
    have hlength : (left.filter (·.isFor p)).length = k := by rw [htail, List.length_tail, hk]; rfl
    rw [List.replicate_succ, hrun, List.map_cons, ih hleft hkinds hlength σ',
      answer_removeFirst hrs hclassified hown]
    rfl

/-- One record after the other is removed, or all at once. -/
theorem texts_removals {k : Nat} (hrs : r.identities = .ok rs)
    (hclassified : ∀ x ∈ rs, x.kind ≠ .unknown) (hk : (rs.filter (·.isFor p)).length = k + 1)
    (σ : Session) :
    Half.identities.texts (heldAfter (List.replicate (k + 1) (removeIdentity p false)) r σ) =
      Half.identities.texts (r.withIdentities { records := rs.filter fun x => !x.isFor p }) := by
  have hown : rs.filter (·.isFor p) ≠ [] := List.ne_nil_of_length_eq_add_one hk
  rw [heldAfter_eq_foldl, List.replicate_succ, List.foldl_cons]
  induction k generalizing r rs σ with
  | zero =>
    obtain ⟨x, hx⟩ := List.length_eq_one_iff.mp hk
    obtain ⟨-, hnext⟩ := next_of_answer rfl hrs (answer_removeFirst hrs hclassified hown σ)
    rw [List.replicate_zero, List.foldl_nil, hnext, kept, eraseP_eq_filter_of_singleton hx]
  | succ k ih =>
    obtain ⟨left, hleft, hkinds, htail, htexts⟩ := next_removeFirst hrs hclassified hown
    have hlength : (left.filter (·.isFor p)).length = k + 1 := by
      rw [htail, List.length_tail, hk]
      rfl
    rw [List.replicate_succ, List.foldl_cons, ← htexts]
    exact ih hleft hkinds hlength σ (List.ne_nil_of_length_eq_add_one hlength)

/-! ### Principals given as text and as names -/

/-- The calls that are about one principal. -/
def callsFor (p : Principal) (username : Text) (groups : List Text) : List Call :=
  [addIdentity p username groups, removeIdentity p false, removeIdentity p true, get p, find p]

section Congruence

variable {q : Principal} (h : p.toText = q.toText)
include h

theorem isFor_congr (x : Identity) : x.isFor p = x.isFor q := by
  rw [Identity.isFor, h, Identity.isFor]

theorem snapshot_get_congr : Snapshot.get p = Snapshot.get q := by
  funext s
  simp only [Snapshot.get, isFor_congr h]

theorem perform_removeIdentity_congr (all : Bool) :
    (removeIdentity p all).perform = (removeIdentity q all).perform := by
  have hremove : Snapshot.removeIdentity p all = Snapshot.removeIdentity q all := by
    funext s
    simp only [Snapshot.removeIdentity, isFor_congr h, h]
  have hremoved : Resource.removed p all = Resource.removed q all := by
    funext s
    rw [Resource.removed, snapshot_get_congr h, Resource.removed]
  funext r
  simp only [perform, Resource.removeIdentity, hremove, hremoved]

theorem perform_get_congr : (get p).perform = (get q).perform := by
  funext r
  simp only [perform, Resource.get, snapshot_get_congr h]

theorem perform_find_congr : (find p).perform = (find q).perform := by
  have hfind : Snapshot.find p = Snapshot.find q := by
    funext s
    rw [Snapshot.find, snapshot_get_congr h, h, Snapshot.find]
  funext r
  simp only [perform, Resource.find, hfind]

end Congruence

theorem perform_callsFor {raw : Text} {b : Arn} (h : Arn.ofText? raw = some b) (username : Text)
    (groups : List Text) : (callsFor (.arn b) username groups).map perform =
      (callsFor (.text raw) username groups).map perform := by
  have htext : Principal.toText (.arn b) = Principal.toText (.text raw) := Arn.toText_of_ofText? h
  have hadd : (addIdentity (.arn b) username groups).perform =
      (addIdentity (.text raw) username groups).perform := by
    funext r
    simp only [perform, Resource.addIdentity, newIdentity_arn username groups h]
  simp only [callsFor, List.map_cons, List.map_nil, hadd, perform_removeIdentity_congr htext,
    perform_get_congr htext, perform_find_congr htext]

/-- Where each record is a role or a user, an edit changes the records of the principal that it is
about and of no other: a new one goes to the end; the first one goes, or all of them. To remove one
after the other until there is none comes to the same texts as to remove all at once. It does not
matter whether a principal is given as a text or as the name that is read from it. -/
theorem get_of_edit {r : Resource} {rs : List Identity} (hrs : decodeRecords r.data = .ok rs)
    (hclassified : ∀ x ∈ rs, x.kind ≠ .unknown) (p : Principal) (σ : Session) :
    (∃ own, r.get p = .ok own ∧
      (∀ username groups a r' σ', (addIdentity p username groups).perform r σ = .ok (a, r') σ' →
        a = .record ⟨p.toText, username, groups⟩ ∧
          r.Reassigned p (own ++ [⟨p.toText, username, groups⟩]) r') ∧
      (∀ a r' σ', (removeIdentity p false).perform r σ = .ok (a, r') σ' →
        a = .count 1 ∧ r.Reassigned p own.tail r') ∧
      ∃ r' σ', (removeIdentity p true).perform r σ = .ok (.count own.length, r') σ' ∧
        r.Reassigned p [] r' ∧
        (own ≠ [] → Half.identities.texts
          (heldAfter (List.replicate own.length (removeIdentity p false)) r σ) =
            Half.identities.texts r') ∧
        (performAll (List.replicate (own.length + 1) (removeIdentity p false)) r σ).map (·.1) =
          List.replicate own.length (.ok (.count 1)) ++
            [.error (.store (.identityNotFound p.toText))]) ∧
    ∀ raw b username groups, Arn.ofText? raw = some b →
      (callsFor (.arn b) username groups).map perform =
        (callsFor (.text raw) username groups).map perform := by
  have hread : r.identities = .ok rs := hrs
  refine ⟨⟨rs.filter (·.isFor p), Resource.get_eq hread p, ?_, ?_, ?_⟩, ?_⟩
  · intro username groups a r' σ' h
    exact reassigned_addIdentity hread h
  · intro a r' σ' h
    obtain ⟨ha, rfl⟩ := perform_eq_ok h
    have hown : rs.filter (·.isFor p) ≠ [] := by
      intro hnone
      rw [answer_removeFirst_of_none hread hnone] at ha
      cases ha
    have hcount := answer_removeFirst hread hclassified hown σ
    exact ⟨Except.ok.inj (ha.symm.trans hcount), reassigned_removeFirst hread ha⟩
  · have hall := answer_removeAll hread hclassified p σ
    obtain ⟨σ', hperform⟩ := perform_of_answer hall
    refine ⟨_, σ', hperform, reassigned_removeAll hread hall, ?_, ?_⟩
    · intro hown
      obtain ⟨k, hk⟩ := Nat.exists_eq_succ_of_ne_zero (mt List.length_eq_zero_iff.mp hown)
      obtain ⟨-, hnext⟩ := next_of_answer rfl hread hall
      rw [hk, hnext]
      exact texts_removals hread hclassified hk σ
    · exact answers_removals hread hclassified rfl σ
  · intro raw b username groups h
    exact perform_callsFor h username groups

/-- One user has two records, one of them filed among the roles, with a role in between. -/
theorem get_of_edit_duplicates :
    let ann (username : Text) : Identity := ⟨"arn:aws:iam::1:user/ann", username, []⟩
    let role : Identity := ⟨"arn:aws:iam::1:role/ops", "ops", []⟩
    let r : Resource := { data := identityTexts [ann "a", role] [ann "b"] }
    let p : Principal := .text "arn:aws:iam::1:user/ann"
    r.get p = .ok [ann "a", ann "b"] ∧
      (∃ r' σ', (addIdentity p "c" []).perform r {} = .ok (.record (ann "c"), r') σ' ∧
        r'.get p = .ok [ann "a", ann "b", ann "c"]) ∧
      (∃ r' σ', (removeIdentity p true).perform r {} = .ok (.count 2, r') σ' ∧
        r'.get p = .ok [] ∧ r'.get (.text role.arn) = .ok [role] ∧
        Half.identities.texts
          (heldAfter [removeIdentity p false, removeIdentity p false] r {}) =
            Half.identities.texts r') := by
  intro ann role r p
  have hrs : decodeRecords r.data = .ok ([ann "a", role] ++ [ann "b"]) :=
    decodeRecords_of_texts rfl rfl
  have hclassified : ∀ x ∈ [ann "a", role] ++ [ann "b"], x.kind ≠ .unknown := by decide
  obtain ⟨⟨own, hown, hadd, -, r', σ', hall, hgone, htexts, -⟩, -⟩ :=
    get_of_edit hrs hclassified p {}
  have hget (q : Principal) := Resource.get_eq hrs q
  obtain rfl : [ann "a", ann "b"] = own := Except.ok.inj ((hget p).symm.trans hown)
  have hothers := hgone.others (.text role.arn) (by decide)
  refine ⟨hown, ?_, r', σ', hall, hgone.own, hothers.trans (hget _), htexts (by simp)⟩
  have hanswer : (addIdentity p "c" []).answer r {} = .ok (.record (ann "c")) := by
    have hnew : newIdentity p "c" [] = .ok (ann "c") := newIdentity_of_kind "c" [] (by decide)
    exact (decidedBy_addIdentity hnew (by decide) hrs {}).accepted hclassified
  obtain ⟨σ₁, hperform⟩ := perform_of_answer hanswer
  exact ⟨_, σ₁, hperform, (hadd _ _ _ _ _ hperform).2.own⟩

end Call

end AuthMap
