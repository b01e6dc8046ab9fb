import Mathlib.Data.List.Forall2
import AuthMap.Session

/-! Work that does no more than log. It is a result that does not depend on the session, with the
events that go with it. -/

namespace AuthMap

theorem Except.bind_ok {ε α β : Type} (a : α) (f : α → Except ε β) :
    (Except.ok a >>= f) = f a := rfl

theorem Except.bind_eq_ok {ε α β : Type} {x : Except ε α} {f : α → Except ε β} {b : β} :
    (x >>= f) = .ok b ↔ ∃ a, x = .ok a ∧ f a = .ok b := by
  cases x <;> simp [bind, Except.bind]

theorem Except.bind_eq_error {ε α β : Type} {x : Except ε α} {f : α → Except ε β} {e : ε} :
    (x >>= f) = .error e ↔ x = .error e ∨ ∃ a, x = .ok a ∧ f a = .error e := by
  cases x <;> simp [bind, Except.bind]

/-- What follows does not depend on the value, so an error alone makes a difference. -/
theorem Except.bind_const_eq_iff {ε α β : Type} {x : Except ε α} {y : Except ε β} :
    (x >>= fun _ => y) = y ↔ ∀ e, x = .error e → y = .error e := by
  cases x with
  | error e =>
    constructor
    · intro h e' he'
      rw [← Except.error.inj he']
      exact h.symm
    · exact fun h => (h e rfl).symm
  | ok a => exact iff_of_true rfl nofun

theorem Except.map_eq_ok {ε α β : Type} {x : Except ε α} {f : α → β} {b : β} :
    f <$> x = .ok b ↔ ∃ a, x = .ok a ∧ f a = b := by
  cases x <;> simp [Functor.map, Except.map]

theorem Except.mapM_eq_ok {ε α β : Type} {f : α → Except ε β} {xs : List α} {ys : List β} :
    xs.mapM f = .ok ys ↔ List.Forall₂ (fun x y => f x = .ok y) xs ys := by
  induction xs generalizing ys with
  | nil => cases ys <;> simp [pure, Except.pure]
  | cons x xs ih =>
    simp only [List.mapM_cons, Except.bind_eq_ok, ih, List.forall₂_cons_left_iff]
    simp [pure, Except.pure, eq_comm]

theorem Except.eq_ok_of_toOption {ε α : Type} {x : Except ε α} {a : α}
    (h : x.toOption = some a) : x = .ok a := by
  cases x with
  | error e => cases h
  | ok a' => rw [Option.some.inj h]

def Except.error? {ε α : Type} : Except ε α → Option ε
  | .error e => some e
  | .ok _ => none

theorem Except.eq_error_of_error? {ε α : Type} {x : Except ε α} {e : ε}
    (h : Except.error? x = some e) : x = .error e := by
  cases x with
  | error e' => rw [Option.some.inj h]
  | ok a => cases h

theorem Except.exists_error_of_toOption {ε α : Type} {x : Except ε α} (h : x.toOption = none) :
    ∃ e, x = .error e := by
  cases x with
  | error e => exact ⟨e, rfl⟩
  | ok a => cases h

theorem StoreError.lift_eq_ok {α : Type} {x : Except StoreError α} {a : α} :
    StoreError.lift x = .ok a ↔ x = .ok a := by
  cases x <;> simp [lift]

theorem StoreError.lift_eq_error {α : Type} {x : Except StoreError α} {t : Trouble} :
    StoreError.lift x = .error t ↔ ∃ e, x = .error e ∧ t = .store e := by
  cases x <;> simp [lift, eq_comm]

def Session.logged (es : List Event) (σ : Session) : Session := { σ with events := σ.events ++ es }

@[simp]
theorem Session.logged_nil (σ : Session) : σ.logged [] = σ := by simp [logged]

@[simp]
theorem Session.logged_logged (es fs : List Event) (σ : Session) :
    (σ.logged es).logged fs = σ.logged (es ++ fs) := by simp [logged]

namespace Work

variable {α β : Type}

theorem bind_of_ok {x : Work α} {f : α → Work β} {σ σ' : Session} {a : α} (h : x σ = .ok a σ') :
    (x >>= f) σ = f a σ' := by simp only [bind, EStateM.bind, h]

theorem bind_of_error {x : Work α} {f : α → Work β} {σ σ' : Session} {t : Trouble}
    (h : x σ = .error t σ') : (x >>= f) σ = .error t σ' := by simp only [bind, EStateM.bind, h]

theorem bind_eq_ok {x : Work α} {f : α → Work β} {σ σ' : Session} {b : β} :
    (x >>= f) σ = .ok b σ' ↔ ∃ a σ₁, x σ = .ok a σ₁ ∧ f a σ₁ = .ok b σ' := by
  simp only [bind, EStateM.bind]
  cases hx : x σ <;> simp

theorem modifyGet_eq (f : Session → α × Session) (σ : Session) :
    (modifyGet f : Work α) σ = .ok (f σ).1 (f σ).2 := rfl

/-- Work that logs events when it succeeds, and does nothing when it fails. -/
def told (outcome : Except Trouble (α × List Event)) : Work α := fun σ =>
  match outcome with
  | .ok (a, es) => .ok a (σ.logged es)
  | .error t => .error t σ

@[simp]
theorem pure_bind (a : α) (f : α → Work β) : (pure a >>= f) = f a := rfl

theorem pure_eq (a : α) : (pure a : Work α) = told (.ok (a, [])) := by
  funext σ
  simp only [told, Session.logged_nil]
  rfl

/-- Events that have been logged stand before those of what follows, which must not fail. -/
@[simp]
theorem told_ok_bind (a : α) (es fs : List Event) (b : α → β) :
    (told (.ok (a, es)) >>= fun a => told (.ok (b a, fs))) = told (.ok (b a, es ++ fs)) := by
  funext σ
  simp [told, bind, EStateM.bind]

end Work

end AuthMap
