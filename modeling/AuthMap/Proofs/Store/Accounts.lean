import Mathlib.Data.Finset.Dedup
import Mathlib.Data.Finset.Erase
import Mathlib.Data.Finset.Insert
import Mathlib.Data.List.Sort
import AuthMap.Proofs.Store.Answers

/-! The accounts are a set. What is added to it or removed from it shows in the texts by its members
alone, because the accounts are written in ascending order and each once. -/

namespace AuthMap

/-! ### The order of texts -/

namespace Text.CodePoint

theorem toNat_injective : Function.Injective CodePoint.toNat :=
  Function.LeftInverse.injective Yaml.ofNat_toNat

instance : Std.Irrefl (· < · : CodePoint → CodePoint → Prop) := ⟨fun p => Nat.lt_irrefl p.toNat⟩

instance : Std.Asymm (· < · : CodePoint → CodePoint → Prop) := ⟨fun _ _ => Nat.lt_asymm⟩

instance : Trans (· < · : CodePoint → CodePoint → Prop) (· < ·) (· < ·) := ⟨Nat.lt_trans⟩

instance : Std.Trichotomous (· < · : CodePoint → CodePoint → Prop) where
  trichotomous _ _ hp hq :=
    toNat_injective (Nat.le_antisymm (Nat.le_of_not_lt hq) (Nat.le_of_not_lt hp))

end Text.CodePoint

/-! ### Ascending lists -/

theorem lt_of_not_lt {x y : Text} (hne : x ≠ y) (hlt : ¬ x < y) : y < x := by
  have hle : y ≤ x := List.not_lt.mp hlt
  rcases List.le_iff_lt_or_eq.mp hle with h | h
  · exact h
  · exact absurd h.symm hne

theorem mem_insertAscending {x y : Text} {ys : List Text} :
    y ∈ insertAscending x ys ↔ y = x ∨ y ∈ ys := by
  induction ys with
  | nil => simp [insertAscending]
  | cons z ys ih =>
    unfold insertAscending
    split_ifs with heq hlt
    · simp [heq]
    · simp
    · rw [List.mem_cons, ih, List.mem_cons, or_left_comm]

theorem pairwise_insertAscending {ys : List Text} (h : ys.Pairwise (· < ·)) (x : Text) :
    (insertAscending x ys).Pairwise (· < ·) := by
  induction ys with
  | nil => exact List.pairwise_singleton _ x
  | cons z ys ih =>
    obtain ⟨hz, hys⟩ := List.pairwise_cons.mp h
    unfold insertAscending
    split_ifs with heq hlt
    · exact h
    · apply List.pairwise_cons.mpr
      refine ⟨?_, h⟩
      intro y hy
      rcases List.mem_cons.mp hy with rfl | hy
      · exact hlt
      · exact List.lt_trans hlt (hz y hy)
    · apply List.pairwise_cons.mpr
      refine ⟨?_, ih hys⟩
      intro y hy
      rcases mem_insertAscending.mp hy with rfl | hy
      · exact lt_of_not_lt heq hlt
      · exact hz y hy

theorem mem_ascending {y : Text} {xs : List Text} : y ∈ ascending xs ↔ y ∈ xs := by
  induction xs with
  | nil => rfl
  | cons x xs ih =>
    have hcons : ascending (x :: xs) = insertAscending x (ascending xs) := rfl
    rw [hcons, mem_insertAscending, ih, List.mem_cons]

theorem pairwise_ascending (xs : List Text) : (ascending xs).Pairwise (· < ·) := by
  induction xs with
  | nil => exact .nil
  | cons x xs ih => exact pairwise_insertAscending ih x

/-- An ascending list is known by its members. -/
theorem ascending_congr {xs ys : List Text} (h : ∀ x, x ∈ xs ↔ x ∈ ys) :
    ascending xs = ascending ys := by
  apply (pairwise_ascending xs).eq_of_mem_iff (pairwise_ascending ys)
  intro x
  rw [mem_ascending, mem_ascending, h x]

namespace Call

/-- What a call does to the accounts as a set. -/
def onAccounts (c : Call) (accounts : Finset Text) : Finset Text :=
  match c with
  | .addAccount account => insert account accounts
  | .removeAccount account => accounts.erase account
  | _ => accounts

/-- The accounts that a call leaves, in order. -/
def left (c : Call) (accounts : List Text) : List Text :=
  match c with
  | .addAccount account => ascending (account :: accounts)
  | .removeAccount account => accounts.filter (· ≠ account)
  | _ => accounts

theorem toFinset_left (c : Call) (accounts : List Text) :
    (c.left accounts).toFinset = c.onAccounts accounts.toFinset := by
  ext x
  rw [List.mem_toFinset]
  cases c with
  | addAccount account =>
    simp only [left, onAccounts, mem_ascending, List.mem_cons, Finset.mem_insert, List.mem_toFinset]
  | removeAccount account => simp [left, onAccounts, and_comm]
  | _ => exact List.mem_toFinset.symm

/-- Accounts that are in ascending order stay so. -/
theorem pairwise_left (c : Call) {accounts : List Text} (h : accounts.Pairwise (· < ·)) :
    (c.left accounts).Pairwise (· < ·) := by
  cases c with
  | addAccount account => exact pairwise_ascending _
  | removeAccount account => exact h.filter _
  | _ => exact h

variable {c : Call} {r : Resource} {held : List Text} {σ : Session}

/-! ### One call -/

theorem addAccount_spec (h : r.accounts = .ok held) (account : Text) (σ : Session) :
    (addAccount account).answer r σ = .ok .done ∧
      (addAccount account).next r =
        r.setAccounts { accounts := ascending (account :: held) } := by
  have heffect : (addAccount account).effect r =
      .ok ((.done, encodeAccounts (ascending (account :: held))),
        [Resource.accountAdded account]) := by
    rw [effect, h]
    rfl
  constructor
  · rw [answer_eq, heffect]
    rfl
  · exact next_of_effect heffect

theorem removeAccount_spec (h : r.accounts = .ok held) {account : Text} (hmem : account ∈ held)
    (σ : Session) : (removeAccount account).answer r σ = .ok .done ∧
      (removeAccount account).next r =
        r.setAccounts { accounts := held.filter (· ≠ account) } := by
  have heffect : (removeAccount account).effect r =
      .ok ((.done, encodeAccounts (held.filter (· ≠ account))),
        [Resource.accountRemoved account]) := by
    have hremove : Snapshot.removeAccount account { accounts := held } =
        .ok { accounts := held.filter (· ≠ account) } := if_pos (List.contains_iff_mem.mpr hmem)
    rw [effect, h, Except.bind_ok, hremove]
    rfl
  constructor
  · rw [answer_eq, heffect]
    rfl
  · exact next_of_effect heffect

theorem removeAccount_of_notMem (h : r.accounts = .ok held) {account : Text}
    (hmem : account ∉ held) (σ : Session) :
    (removeAccount account).answer r σ = .error (.store (.accountNotFound account)) := by
  have hremove : Snapshot.removeAccount account { accounts := held } =
      .error (.accountNotFound account) := if_neg (by simpa using hmem)
  rw [answer_eq, effect, h, Except.bind_ok, hremove]
  rfl

theorem accounts_next_of_other (hc : c.half = .identities ∨ c = .accounts) :
    (c.next r).accounts = r.accounts := by
  rcases hc with hc | rfl
  · have htexts : Half.accounts.texts (c.next r) = Half.accounts.texts r :=
      texts_next_of_ne (by simp [hc])
    exact decodeAccounts_congr (Half.texts_eq_iff.mp htexts accountsKey (by decide))
  · unfold next
    cases h : effect .accounts r with
    | error t => rfl
    | ok e =>
      simp only [effect, Except.bind_eq_ok] at h
      obtain ⟨held, -, h⟩ := h
      cases h
      rfl

/-- The accounts can be read after each call. -/
theorem accounts_next (h : r.accounts = .ok held) (c : Call) :
    (c.next r).accounts = .ok (c.left held) := by
  cases c with
  | addAccount account =>
    rw [(addAccount_spec h account {}).2]
    exact Resource.accounts_setAccounts _ r
  | removeAccount account =>
    by_cases hmem : account ∈ held
    · rw [(removeAccount_spec h hmem {}).2]
      exact Resource.accounts_setAccounts _ r
    · have hsame : held.filter (· ≠ account) = held := by
        apply List.filter_eq_self.mpr
        intro x hx
        simpa using fun heq : x = account => hmem (heq ▸ hx)
      rw [next_of_refused (removeAccount_of_notMem h hmem {}), left, hsame, h]
  | accounts => exact (accounts_next_of_other (Or.inr rfl)).trans h
  | _ => exact (accounts_next_of_other (Or.inl rfl)).trans h

/-! ### Calls one after the other -/

theorem accounts_heldAfter (h : r.accounts = .ok held) (cs : List Call) (σ : Session) :
    (heldAfter cs r σ).accounts = .ok (cs.foldl (fun xs c => c.left xs) held) := by
  rw [heldAfter_eq_foldl]
  induction cs generalizing r held with
  | nil => exact h
  | cons c cs ih => exact ih (accounts_next h c)

theorem toFinset_foldl_left (cs : List Call) (accounts : List Text) :
    (cs.foldl (fun xs c => c.left xs) accounts).toFinset =
      cs.foldl (fun s c => c.onAccounts s) accounts.toFinset := by
  induction cs generalizing accounts with
  | nil => rfl
  | cons c cs ih => rw [List.foldl_cons, ih, toFinset_left, List.foldl_cons]

theorem pairwise_foldl_left (cs : List Call) {accounts : List Text}
    (h : accounts.Pairwise (· < ·) ∨ ∃ account, addAccount account ∈ cs) :
    (cs.foldl (fun xs c => c.left xs) accounts).Pairwise (· < ·) := by
  induction cs generalizing accounts with
  | nil =>
    rcases h with h | ⟨account, hmem⟩
    · exact h
    · cases hmem
  | cons c cs ih =>
    apply ih
    rcases h with h | ⟨account, hmem⟩
    · exact Or.inl (pairwise_left c h)
    · rcases List.mem_cons.mp hmem with rfl | hmem
      · exact Or.inl (pairwise_ascending _)
      · exact Or.inr ⟨account, hmem⟩

theorem mem_foldl_left {x : Text} {xs accounts : List Text} :
    x ∈ (xs.map addAccount).foldl (fun xs c => c.left xs) accounts ↔ x ∈ xs ∨ x ∈ accounts := by
  induction xs generalizing accounts with
  | nil => simp
  | cons y xs ih =>
    rw [List.map_cons, List.foldl_cons, ih, left, mem_ascending, List.mem_cons, List.mem_cons,
      or_left_comm, or_assoc]

theorem heldAfter_concat (cs : List Call) (c : Call) (r : Resource) (σ : Session) :
    heldAfter (cs ++ [c]) r σ = c.next (heldAfter cs r σ) := by
  rw [heldAfter_eq_foldl, heldAfter_eq_foldl, List.foldl_append, List.foldl_cons, List.foldl_nil]

/-- The text that is left when accounts have been added. -/
theorem text_additions (h : r.accounts = .ok held) {xs : List Text} (hxs : xs ≠ []) (σ : Session) :
    (heldAfter (xs.map addAccount) r σ).data.get? accountsKey =
      some (Yaml.printTexts (ascending (xs ++ held))) := by
  rcases List.eq_nil_or_concat xs with rfl | ⟨front, last, rfl⟩
  · exact absurd rfl hxs
  · let middle := (front.map addAccount).foldl (fun xs c => c.left xs) held
    have hmiddle := accounts_heldAfter h (front.map addAccount) σ
    have hmem : ∀ x, x ∈ last :: middle ↔ x ∈ front ++ [last] ++ held := by
      intro x
      rw [List.mem_cons, mem_foldl_left, List.mem_append, List.mem_append, List.mem_singleton,
        or_assoc, or_left_comm]
    rw [List.concat_eq_append, List.map_append, List.map_cons, List.map_nil, heldAfter_concat,
      (addAccount_spec hmiddle last σ).2, ascending_congr hmem]
    simp only [Resource.setAccounts, Resource.withData, Data.update, encodeAccounts,
      List.foldl_cons, List.foldl_nil, Data.get?_set, if_pos]

/-- Where the accounts can be read, calls make of them what insertion and deletion make of the set.
An account that is not there cannot be removed, and then all stays as it is; one that is there goes
wherever it stands. Once one has been added they are in ascending order. Which accounts have been
added decides on the text, not in which order or how often. -/
theorem accounts_of_calls {r : Resource} {held : List Text} (h : decodeAccounts r.data = .ok held)
    (cs : List Call) (σ : Session) :
    (∃ accounts, (heldAfter cs r σ).accounts = .ok accounts ∧
      accounts.toFinset = cs.foldl (fun s c => c.onAccounts s) held.toFinset ∧
      ((∃ account, addAccount account ∈ cs) → accounts.Pairwise (· < ·)) ∧
      ∀ account σ',
        (addAccount account).answer (heldAfter cs r σ) σ' = .ok .done ∧
        ((removeAccount account).answer (heldAfter cs r σ) σ' =
          .error (.store (.accountNotFound account)) ↔ account ∉ accounts) ∧
        (account ∉ accounts →
          heldAfter (cs ++ [removeAccount account]) r σ = heldAfter cs r σ) ∧
        (account ∈ accounts →
          (removeAccount account).answer (heldAfter cs r σ) σ' = .ok .done ∧
          (heldAfter (cs ++ [removeAccount account]) r σ).accounts =
            .ok (accounts.filter (· ≠ account)))) ∧
    ∀ (xs ys : List Text) (σ' : Session), (∀ x, x ∈ xs ↔ x ∈ ys) →
      (heldAfter (xs.map addAccount) r σ).data.get? accountsKey =
        (heldAfter (ys.map addAccount) r σ').data.get? accountsKey := by
  constructor
  · have haccounts := accounts_heldAfter h cs σ
    refine ⟨_, haccounts, toFinset_foldl_left cs held,
      fun hadded => pairwise_foldl_left cs (Or.inr hadded), ?_⟩
    intro account σ'
    refine ⟨(addAccount_spec haccounts account σ').1, ?_, ?_, ?_⟩
    · constructor
      · intro hrefused hmem
        rw [(removeAccount_spec haccounts hmem σ').1] at hrefused
        cases hrefused
      · intro hmem
        exact removeAccount_of_notMem haccounts hmem σ'
    · intro hmem
      rw [heldAfter_concat]
      exact next_of_refused (removeAccount_of_notMem haccounts hmem σ')
    · intro hmem
      refine ⟨(removeAccount_spec haccounts hmem σ').1, ?_⟩
      rw [heldAfter_concat, accounts_next haccounts]
      rfl
  · intro xs ys σ' hsame
    by_cases hxs : xs = []
    · have hys : ys = [] := by
        apply List.eq_nil_iff_forall_not_mem.mpr
        intro y hy
        simpa [hxs] using (hsame y).mpr hy
      rw [hxs, hys]
      rfl
    · have hys : ys ≠ [] := by
        rintro rfl
        obtain ⟨x, hx⟩ := List.exists_mem_of_ne_nil xs hxs
        simpa using (hsame x).mp hx
      have hmem : ∀ x, x ∈ xs ++ held ↔ x ∈ ys ++ held := by
        intro x
        rw [List.mem_append, List.mem_append, hsame x]
      rw [text_additions h hxs σ, text_additions h hys σ', ascending_congr hmem]

/-- Accounts that are stored out of order, one of them twice. -/
theorem accounts_of_calls_unordered :
    let stored : List Text := ["2", "010", "2"]
    let r : Resource := { data := encodeAccounts stored }
    let added (xs : List Text) := heldAfter (xs.map addAccount) r {}
    (removeAccount "3").answer r {} = .error (.store (.accountNotFound "3")) ∧
      (heldAfter [removeAccount "2"] r {}).accounts = .ok ["010"] ∧
      (added ["9", "é", "10"]).data.get? accountsKey =
        (added ["10", "9", "10", "é"]).data.get? accountsKey ∧
      ∃ accounts, (added ["9", "é", "10"]).accounts = .ok accounts ∧
        accounts.Pairwise (· < ·) ∧ ("é" : Text) ∈ accounts ∧ ("010" : Text) ∈ accounts := by
  have hrepeated (a b c x : Text) : x ∈ [a, b, c] ↔ x ∈ [c, a, c, b] := by
    simp only [List.mem_cons, List.not_mem_nil, or_false]
    tauto
  intro stored r added
  have hstored : decodeAccounts r.data = .ok stored := decodeAccounts_printTexts rfl
  have hstart : heldAfter [] r {} = r := rfl
  obtain ⟨⟨accounts, haccounts, -, -, hcall⟩, hsame⟩ := accounts_of_calls hstored [] {}
  obtain ⟨⟨left, hleft, hset, hsorted, -⟩, -⟩ :=
    accounts_of_calls hstored [addAccount "9", addAccount "é", addAccount "10"] {}
  rw [hstart] at haccounts hcall
  obtain rfl : accounts = stored := Except.ok.inj (haccounts.symm.trans hstored)
  have habsent : (removeAccount "3").answer r {} = .error (.store (.accountNotFound "3")) :=
    (hcall "3" {}).2.1.mpr (by decide)
  have hremoved : (heldAfter [removeAccount "2"] r {}).accounts =
      .ok (stored.filter (· ≠ "2")) := ((hcall "2" {}).2.2.2 (by decide)).2
  have htexts := hsame ["9", "é", "10"] ["10", "9", "10", "é"] {} (hrepeated _ _ _)
  have hmem (x : Text) : x ∈ left ↔ x = "10" ∨ x = "é" ∨ x = "9" ∨ x ∈ stored := by
    rw [← List.mem_toFinset, hset]
    simp only [List.foldl_cons, List.foldl_nil, onAccounts, Finset.mem_insert, List.mem_toFinset]
  refine ⟨habsent, hremoved, htexts, left, hleft, hsorted ⟨"9", List.mem_cons_self⟩, ?_, ?_⟩
  · exact (hmem _).mpr (Or.inr (Or.inl rfl))
  · exact (hmem _).mpr (by decide)

end Call

end AuthMap
