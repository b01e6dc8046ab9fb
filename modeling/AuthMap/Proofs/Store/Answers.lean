import AuthMap.Proofs.Store.Separation

/-! What a call answers and what is held after it, each without the session it was made in. -/

namespace AuthMap.Call

def answer (c : Call) (r : Resource) (σ : Session) : Except Trouble Answer :=
  match c.perform r σ with
  | .ok (a, _) _ => .ok a
  | .error t _ => .error t

/-- What is held after the last of some calls. -/
def heldAfter (cs : List Call) (r : Resource) (σ : Session) : Resource :=
  ((performAll cs r σ).getLast?.map (·.2)).getD r

variable {c : Call} {r r' : Resource} {rs : List Identity} {a : Answer} {σ σ' : Session}

theorem answer_eq (c : Call) (r : Resource) (σ : Session) :
    c.answer r σ = (c.effect r).map (·.1.1) := by
  rw [answer, perform_eq_told]
  cases c.effect r <;> rfl

theorem effect_of_answer (h : c.answer r σ = .ok a) : ∃ e, c.effect r = .ok e ∧ e.1.1 = a := by
  rw [answer_eq] at h
  cases he : c.effect r with
  | error t =>
    rw [he] at h
    cases h
  | ok e =>
    rw [he] at h
    exact ⟨e, rfl, Except.ok.inj h⟩

theorem perform_of_answer (h : c.answer r σ = .ok a) :
    ∃ σ', c.perform r σ = .ok (a, c.next r) σ' := by
  obtain ⟨e, he, rfl⟩ := effect_of_answer h
  rw [perform_eq_told, next_of_effect he, he]
  exact ⟨_, rfl⟩

theorem perform_eq_ok (h : c.perform r σ = .ok (a, r') σ') :
    c.answer r σ = .ok a ∧ r' = c.next r := by
  have ha : c.answer r σ = .ok a := by rw [answer, h]
  obtain ⟨σ'', hperform⟩ := perform_of_answer ha
  rw [hperform] at h
  cases h
  exact ⟨ha, rfl⟩

theorem next_of_refused {t : Trouble} (h : c.answer r σ = .error t) : c.next r = r := by
  rw [answer_eq] at h
  cases he : c.effect r with
  | error t' => exact next_of_error he
  | ok e =>
    rw [he] at h
    cases h

/-- The texts after an edit are those of the records that it means to keep. -/
theorem next_of_answer (hc : c.editsIdentities) (hrs : r.identities = .ok rs)
    (h : c.answer r σ = .ok a) : Snapshot.Classified { records := c.kept a rs } ∧
      c.next r = r.withIdentities { records := c.kept a rs } := by
  obtain ⟨e, he, rfl⟩ := effect_of_answer h
  obtain ⟨rs', hrs', hnext⟩ := next_of_edit hc he
  obtain rfl : rs' = rs := Except.ok.inj (hrs'.symm.trans hrs)
  exact hnext

/-! ### Calls one after the other -/

theorem performAll_cons_eq (c : Call) (cs : List Call) (r : Resource) (σ : Session) :
    ∃ σ', performAll (c :: cs) r σ = (c.answer r σ, c.next r) :: performAll cs (c.next r) σ' := by
  rw [answer_eq]
  exact performAll_cons c cs r σ

theorem heldAfter_eq_foldl (cs : List Call) (r : Resource) (σ : Session) :
    heldAfter cs r σ = cs.foldl (fun r c => c.next r) r := by
  induction cs generalizing r σ with
  | nil => rfl
  | cons c cs ih =>
    obtain ⟨σ', hrun⟩ := performAll_cons_eq c cs r σ
    rw [List.foldl_cons, ← ih (c.next r) σ', heldAfter, heldAfter, hrun, List.getLast?_cons]
    cases (performAll cs (c.next r) σ').getLast? <;> rfl

end AuthMap.Call
