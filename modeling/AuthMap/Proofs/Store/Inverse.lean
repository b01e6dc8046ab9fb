import AuthMap.Proofs.Store.Accounts
import AuthMap.Proofs.Store.Interchange

/-! An addition is undone by the removal of what was added, as long as it was not there before. The
new record of a role comes to stand between the roles and the users, and is found there because no
other record has its name. -/

namespace AuthMap

theorem Identity.without_append_self {p : Principal} {rs new : List Identity}
    (hrs : ∀ x ∈ rs, ¬ x.isFor p) (hnew : ∀ x ∈ new, x.isFor p) (hone : new.length ≤ 1)
    (all : Bool) : without p all (rs ++ new) = rs := by
  cases all with
  | true =>
    have hold : (rs.filter fun x => !x.isFor p) = rs :=
      List.filter_eq_self.mpr fun x hx => by simpa using hrs x hx
    have hgone : (new.filter fun x => !x.isFor p) = [] :=
      List.filter_eq_nil_iff.mpr fun x hx => by simpa using hnew x hx
    simp only [without, if_true, List.filter_append, hold, hgone, List.append_nil]
  | false =>
    simp only [without, Bool.false_eq_true, if_false, List.eraseP_append_right new hrs]
    cases new with
    | nil => simp
    | cons x new =>
      obtain rfl : new = [] := List.length_eq_zero_iff.mp (by simpa using hone)
      rw [List.eraseP_cons_of_pos (hnew x List.mem_cons_self), List.append_nil]

theorem filter_ascending_cons {account : Text} {accounts : List Text}
    (h : accounts.Pairwise (· < ·)) (hnew : account ∉ accounts) :
    (ascending (account :: accounts)).filter (· ≠ account) = accounts := by
  apply ((pairwise_ascending _).filter _).eq_of_mem_iff h
  intro x
  rw [List.mem_filter, mem_ascending, List.mem_cons, decide_eq_true_iff]
  constructor
  · rintro ⟨rfl | hx, hne⟩
    · exact absurd rfl hne
    · exact hx
  · intro hx
    exact ⟨Or.inr hx, fun heq => hnew (heq ▸ hx)⟩

theorem tail_append_singleton {α : Type} {x : α} {xs : List α} (h : ∀ y ∈ xs, y = x) :
    (xs ++ [x]).tail = xs := by
  rw [List.eq_replicate_of_mem h, ← List.replicate_succ', List.tail_replicate]
  rfl

/-- Held are the texts that a snapshot is written as. -/
def Resource.Writes (s : Snapshot) (r : Resource) : Prop :=
  ∃ data, encodeSnapshot s = .ok data ∧ ∀ e ∈ data, r.data.get? e.1 = some e.2

/-- Of the records of a principal the first one has gone and a new one has come. They are the same
as before if all of them were like the new one, and everything else is there as before. -/
structure Resource.Restored (p : Principal) (new : Identity) (rs : List Identity)
    (r r' : Resource) : Prop where
  texts : ∀ key ∉ Half.identities.keys, r'.data.get? key = r.data.get? key
  others : ∀ q : Principal, q.toText ≠ p.toText → r'.get q = r.get q
  unmapped : (∀ x ∈ rs, x.arn ≠ p.toText) →
    r'.identities = .ok (Snapshot.roles { records := rs } ++ Snapshot.users { records := rs })
  mapped : (∀ x ∈ rs, x.arn = p.toText → x = new) → r'.get p = r.get p

namespace Call

variable {c d : Call} {p : Principal} {r : Resource} {rs : List Identity} {s : Snapshot}
  {username : Text} {groups : List Text} {held : List Text} {account : Text}

/-! ### An addition and its removal -/

theorem answer_addIdentity_of_known (hp : p.kind ≠ .unknown)
    (hkind : Arn.kindOf p.toText ≠ .unknown) (hrs : r.identities = .ok rs)
    (hclassified : ∀ x ∈ rs, x.kind ≠ .unknown) (username : Text) (groups : List Text)
    (σ : Session) :
    (addIdentity p username groups).answer r σ = .ok (.record ⟨p.toText, username, groups⟩) :=
  (decidedBy_addIdentity (newIdentity_eq_ok.mpr ⟨hp, rfl⟩) hkind hrs σ).accepted hclassified

/-- The records of the principal are then those that it had, and the new one. -/
theorem next_addIdentity {a : Answer} {σ : Session} (hrs : r.identities = .ok rs)
    (hclassified : ∀ x ∈ rs, x.kind ≠ .unknown)
    (ha : (addIdentity p username groups).answer r σ = .ok a) :
    ∃ rs', ((addIdentity p username groups).next r).identities = .ok rs' ∧
      (∀ x ∈ rs', x.kind ≠ .unknown) ∧
      rs'.filter (·.isFor p) = rs.filter (·.isFor p) ++ [⟨p.toText, username, groups⟩] := by
  obtain ⟨rs', hrs', hclassified', -⟩ := next_of_editOf (.add username groups) hrs hclassified
  obtain ⟨σ', hperform⟩ := perform_of_answer ha
  have hown := (reassigned_addIdentity hrs hperform).2.own
  rw [Resource.get_eq hrs'] at hown
  exact ⟨rs', hrs', hclassified', Except.ok.inj hown⟩

theorem answer_removeIdentity_of_one {x : Identity} (hrs : r.identities = .ok rs)
    (hclassified : ∀ x ∈ rs, x.kind ≠ .unknown) (hown : rs.filter (·.isFor p) = [x]) (all : Bool)
    (σ : Session) : (removeIdentity p all).answer r σ = .ok (.count 1) := by
  cases all with
  | true => rw [answer_removeAll hrs hclassified, hown, List.length_singleton]
  | false => exact answer_removeFirst hrs hclassified (by simp [hown]) σ

/-- The roles and the users are then the same as before. -/
theorem removeIdentity_addIdentity (hrs : r.identities = .ok rs)
    (hclassified : ∀ x ∈ rs, x.kind ≠ .unknown) (habsent : ∀ x ∈ rs, x.arn ≠ p.toText)
    (hp : p.kind ≠ .unknown) (hkind : Arn.kindOf p.toText ≠ .unknown) (username : Text)
    (groups : List Text) (all : Bool) (σ : Session) :
    let added := (addIdentity p username groups).next r
    (removeIdentity p all).answer added σ = .ok (.count 1) ∧
      ∃ s : Snapshot, (removeIdentity p all).next added = added.withIdentities s ∧
        s.roles = Snapshot.roles { records := rs } ∧
        s.users = Snapshot.users { records := rs } := by
  intro added
  have ha := answer_addIdentity_of_known hp hkind hrs hclassified username groups σ
  obtain ⟨rs', hrs', hclassified', hown⟩ := next_addIdentity hrs hclassified ha
  have hnone : ∀ x ∈ rs, ¬ x.isFor p := fun x hx => mt Identity.isFor_iff.mp (habsent x hx)
  rw [List.filter_eq_nil_iff.mpr hnone, List.nil_append] at hown
  have hb := answer_removeIdentity_of_one hrs' hclassified' hown all σ
  obtain ⟨s, hnext, hkinds⟩ :=
    next_next_of_answer (.add username groups) (.remove all) hrs ha hb
  -- of each kind, what was there stands before what has been added
  have hsame (k : Kind) (hk : k ≠ .unknown) : (s.records.filter fun x => x.kind = k) =
      rs.filter fun x => x.kind = k := by
    rw [hkinds k hk]
    apply Identity.without_append_self
    · exact fun x hx => hnone x (List.mem_filter.mp hx).1
    · intro x hx
      rw [List.mem_singleton.mp (List.mem_filter.mp hx).1]
      exact Identity.isFor_iff.mpr rfl
    · exact List.length_filter_le ..
  exact ⟨hb, s, hnext, hsame .role nofun, hsame .user nofun⟩

theorem removeAccount_addAccount (h : r.accounts = .ok held) (hsorted : held.Pairwise (· < ·))
    (hnew : account ∉ held) (σ : Session) :
    let added := (addAccount account).next r
    (removeAccount account).answer added σ = .ok .done ∧
      (removeAccount account).next added = added.setAccounts { accounts := held } := by
  intro added
  have hadded : added.accounts = .ok (ascending (account :: held)) := accounts_next h _
  have hmem : account ∈ ascending (account :: held) := mem_ascending.mpr List.mem_cons_self
  obtain ⟨hb, hnext⟩ := removeAccount_spec hadded hmem σ
  rw [filter_ascending_cons hsorted hnew] at hnext
  exact ⟨hb, hnext⟩

/-- There may have been records of the principal before. The first of them goes then, and the new
one stays. -/
theorem restored_removeIdentity (hrs : r.identities = .ok rs)
    (hclassified : ∀ x ∈ rs, x.kind ≠ .unknown) (hp : p.kind ≠ .unknown)
    (hkind : Arn.kindOf p.toText ≠ .unknown) (username : Text) (groups : List Text)
    (σ : Session) :
    let added := (addIdentity p username groups).next r
    (removeIdentity p false).answer added σ = .ok (.count 1) ∧
      r.Restored p ⟨p.toText, username, groups⟩ rs ((removeIdentity p false).next added) := by
  intro added
  have ha := answer_addIdentity_of_known hp hkind hrs hclassified username groups σ
  obtain ⟨rs', hrs', hclassified', hown⟩ := next_addIdentity hrs hclassified ha
  have hsome : rs'.filter (·.isFor p) ≠ [] := by simp [hown]
  have hb := answer_removeFirst hrs' hclassified' hsome σ
  obtain ⟨σ', hperform⟩ := perform_of_answer ha
  have hadded := (reassigned_addIdentity hrs hperform).2
  have hremoved := reassigned_removeFirst hrs' hb
  refine ⟨hb, fun key hkey => ?_, fun q hq => ?_, fun habsent => ?_, fun hall => ?_⟩
  · exact (get?_next_of_notMem hkey added).trans (get?_next_of_notMem hkey r)
  · exact (hremoved.others q hq).trans (hadded.others q hq)
  · obtain ⟨-, s, hnext, hroles, husers⟩ :=
      removeIdentity_addIdentity hrs hclassified habsent hp hkind username groups false σ
    rw [hnext, Resource.identities_withIdentities, hroles, husers]
  · have hsame : ∀ x ∈ rs.filter (·.isFor p), x = ⟨p.toText, username, groups⟩ := by
      intro x hx
      obtain ⟨hx, hfor⟩ := List.mem_filter.mp hx
      exact hall x hx (Identity.isFor_iff.mp hfor)
    rw [hremoved.own, hown, tail_append_singleton hsame, Resource.get_eq hrs]

/-! ### Texts that come back -/

/-- Two calls that are answered, the second of which brings the texts back that the first found. -/
structure Undone (c d : Call) (a b : Answer) (r : Resource) : Prop where
  answers : ∀ σ, (performAll [c, d] r σ).map (·.1) = [.ok a, .ok b]
  texts : ∀ σ key, (heldAfter [c, d] r σ).data.get? key = r.data.get? key

theorem undone_of_next {a b : Answer} (ha : ∀ σ, c.answer r σ = .ok a)
    (hb : ∀ σ, d.answer (c.next r) σ = .ok b) (hhalf : d.half = c.half)
    (htexts : ∀ key ∈ c.half.keys, (d.next (c.next r)).data.get? key = r.data.get? key) :
    Undone c d a b r where
  answers σ := by
    obtain ⟨σ₁, hrun⟩ := performAll_cons_eq c [d] r σ
    obtain ⟨σ₂, hlast⟩ := performAll_cons_eq d [] (c.next r) σ₁
    rw [hrun, hlast, ha, hb]
    rfl
  texts σ key := by
    rw [heldAfter_eq_foldl]
    change (d.next (c.next r)).data.get? key = r.data.get? key
    by_cases hkey : key ∈ c.half.keys
    · exact htexts key hkey
    · rw [get?_next_of_notMem (hhalf ▸ hkey), get?_next_of_notMem hkey]

end Call

namespace Resource

variable {r : Resource} {s : Snapshot}

theorem Writes.classified (h : r.Writes s) : s.Classified := by
  obtain ⟨data, hdata, -⟩ := h
  obtain ⟨texts, htexts, -⟩ := Except.bind_eq_ok.mp hdata
  obtain ⟨halves, hsplit, -⟩ := Except.bind_eq_ok.mp htexts
  exact Snapshot.classified_of_split hsplit

theorem Writes.get? (h : r.Writes s) :
    (r.data.get? rolesKey = some (Yaml.printRecords (s.roles.map (Identity.written "rolearn"))) ∧
      r.data.get? usersKey =
        some (Yaml.printRecords (s.users.map (Identity.written "userarn")))) ∧
      r.data.get? accountsKey = some (Yaml.printTexts s.accounts) := by
  obtain ⟨data, hdata, hheld⟩ := id h
  rw [encodeSnapshot_of_classified h.classified] at hdata
  obtain rfl := Except.ok.inj hdata
  simp only [identityTexts, encodeAccounts, List.cons_append, List.nil_append,
    List.forall_mem_cons] at hheld
  exact ⟨⟨hheld.1, hheld.2.1⟩, hheld.2.2.1⟩

end Resource

namespace Call

variable {p : Principal} {r : Resource} {s : Snapshot} {account : Text}

theorem undone_addIdentity (h : r.Writes s) (hs : s.Partitioned)
    (habsent : ∀ x ∈ s.records, x.arn ≠ p.toText) (hp : p.kind ≠ .unknown)
    (hkind : Arn.kindOf p.toText ≠ .unknown) (username : Text) (groups : List Text) (all : Bool) :
    Undone (addIdentity p username groups) (removeIdentity p all)
      (.record ⟨p.toText, username, groups⟩) (.count 1) r := by
  obtain ⟨⟨hroles, husers⟩, -⟩ := h.get?
  have hrs : r.identities = .ok s.records := by
    have hread : r.identities = .ok (s.roles ++ s.users) := decodeRecords_of_texts hroles husers
    rw [hread]
    exact congrArg (fun t : Snapshot => Except.ok t.records) hs.partitioned_eq
  have hundone := removeIdentity_addIdentity hrs h.classified habsent hp hkind username groups all
  refine undone_of_next (answer_addIdentity_of_known hp hkind hrs h.classified username groups)
    (fun σ => (hundone σ).1) rfl ?_
  obtain ⟨-, s', hnext, hroles', husers'⟩ := hundone {}
  obtain ⟨hrolesText, husersText⟩ :=
    Resource.get?_withIdentities s' ((addIdentity p username groups).next r)
  have hkeys : (addIdentity p username groups).half.keys = [rolesKey, usersKey] := rfl
  rw [hkeys, hnext, List.forall_mem_cons, List.forall_mem_singleton, hrolesText, husersText,
    hroles', husers', hroles, husers]
  exact ⟨rfl, rfl⟩

theorem undone_addAccount (h : r.Writes s) (hsorted : s.accounts.Pairwise (· < ·))
    (hnew : account ∉ s.accounts) :
    Undone (addAccount account) (removeAccount account) .done .done r := by
  obtain ⟨-, htext⟩ := h.get?
  have haccounts : r.accounts = .ok s.accounts := decodeAccounts_printTexts htext
  have hundone := removeAccount_addAccount haccounts hsorted hnew
  refine undone_of_next (fun σ => (addAccount_spec haccounts account σ).1)
    (fun σ => (hundone σ).1) rfl ?_
  have hkeys : (addAccount account).half.keys = [accountsKey] := rfl
  rw [hkeys, List.forall_mem_singleton, (hundone {}).2, htext]
  simp only [Resource.setAccounts, Resource.withData, Data.update, encodeAccounts, List.foldl_cons,
    List.foldl_nil, Data.get?_set, if_pos]

end Call

end AuthMap
