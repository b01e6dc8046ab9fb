import AuthMap.Proofs.Arn

/-! The parts of a name. The texts that are names, what is read from each of them, and which of them
name a role or a user, said without cutting any text. -/

namespace AuthMap

def slash : Text.CodePoint := .char '/'

/-- Where as many of an element stand before it, an occurrence is the same. -/
theorem append_cons_inj_of_count {α : Type} [DecidableEq α] {x : α}
    {before before' after after' : List α} (h : before ++ x :: after = before' ++ x :: after')
    (hcount : before.count x = before'.count x) : before = before' ∧ after = after' := by
  induction before generalizing before' with
  | nil =>
    cases before' with
    | nil => exact ⟨rfl, (List.cons.inj h).2⟩
    | cons y before' =>
      obtain ⟨rfl, -⟩ := List.cons.inj h
      rw [List.count_nil, List.count_cons_self] at hcount
      omega
  | cons y before ih =>
    cases before' with
    | nil =>
      obtain ⟨rfl, -⟩ := List.cons.inj h
      rw [List.count_nil, List.count_cons_self] at hcount
      omega
    | cons z before' =>
      obtain ⟨rfl, htails⟩ := List.cons.inj h
      simp only [List.count_cons, Nat.add_right_cancel_iff] at hcount
      obtain ⟨rfl, rfl⟩ := ih htails hcount
      exact ⟨rfl, rfl⟩

theorem Text.cut_of_forall_not {α : Type} {isSep : α → Bool} {cs : List α}
    (h : ∀ c ∈ cs, isSep c = false) : cut isSep cs = (cs, none) := by
  induction cs with
  | nil => rfl
  | cons c cs ih =>
    rw [List.forall_mem_cons] at h
    simp [cut, h.1, ih h.2]

namespace Arn

variable {raw type : Text} {a : Arn} {k : Kind}

/-! ### Resources -/

theorem endsType_iff {p : Text.CodePoint} : endsType p ↔ p = slash ∨ p = colon := by
  simp [endsType, slash, colon]

theorem endsType_eq_false_iff {p : Text.CodePoint} :
    endsType p = false ↔ p ≠ slash ∧ p ≠ colon := by
  rw [← Bool.not_eq_true, endsType_iff, not_or]

theorem resourceType_plain (a : Arn) : ∀ p ∈ a.resourceType, endsType p = false := by
  unfold resourceType
  cases hcut : Text.cut endsType a.resource with
  | mk part rest =>
    cases rest with
    | none =>
      obtain ⟨rfl, hpart⟩ := Text.cut_eq_none hcut
      exact hpart
    | some rest =>
      obtain ⟨-, -, -, hpart⟩ := Text.cut_eq_some hcut
      exact hpart

theorem resource_eq (a : Arn) : a.resource = a.resourceType ∧ a.resourceName = [] ∨
    ∃ p, endsType p ∧ a.resource = a.resourceType ++ p :: a.resourceName := by
  unfold resourceType resourceName
  cases hcut : Text.cut endsType a.resource with
  | mk part rest =>
    cases rest with
    | none =>
      obtain ⟨hpart, -⟩ := Text.cut_eq_none hcut
      exact Or.inl ⟨hpart.symm, rfl⟩
    | some rest =>
      obtain ⟨p, hp, heq, -⟩ := Text.cut_eq_some hcut
      exact Or.inr ⟨p, hp, heq⟩

/-- Nothing else is of this type, or ends with it, or goes on with a name after it. -/
theorem resourceType_eq_iff (htype : ∀ p ∈ type, endsType p = false) :
    a.resourceType = type ↔
      a.resource = type ∨ ∃ p name, endsType p ∧ a.resource = type ++ p :: name := by
  constructor
  · rintro rfl
    rcases a.resource_eq with ⟨hresource, -⟩ | ⟨p, hp, hresource⟩
    · exact Or.inl hresource
    · exact Or.inr ⟨p, _, hp, hresource⟩
  · rintro (hresource | ⟨p, name, hp, hresource⟩)
    · rw [resourceType, hresource, Text.cut_of_forall_not htype]
    · rw [resourceType, hresource, Text.cut_append htype hp]

theorem kind_eq_iff (hk : k ≠ .unknown) : a.kind = k ↔ a.resourceType = k.name := by
  unfold kind
  split
  · next hrole =>
    rw [hrole]
    revert hk
    cases k <;> decide
  · next hrole =>
    split
    · next huser =>
      rw [huser]
      revert hk
      cases k <;> decide
    · next huser =>
      refine iff_of_false hk.symm ?_
      cases k with
      | role => exact hrole
      | user => exact huser
      | unknown => exact absurd rfl hk

/-! ### Names -/

/-- What stands before the last of the colons that end a part. -/
def front (a : Arn) : Text :=
  a.scheme ++ colon :: (a.partition ++ colon :: (a.service ++ colon ::
    (a.region ++ colon :: a.account)))

theorem toText_eq (a : Arn) : a.toText = a.front ++ colon :: a.resource := by
  simp only [toText, front, colon, List.append_assoc, List.cons_append]

theorem count_front (h : ∀ part ∈ a.leading, colon ∉ part) : a.front.count colon = 4 := by
  simp only [leading, List.forall_mem_cons, ← List.count_eq_zero] at h
  obtain ⟨hscheme, hpartition, hservice, hregion, haccount, -⟩ := h
  simp only [front, List.count_append, List.count_cons_self, hscheme, hpartition, hservice, hregion,
    haccount]

theorem leading_of_ofText? (h : ofText? raw = some a) : ∀ part ∈ a.leading, colon ∉ part := by
  rw [← ofText?_toText, toText_of_ofText? h, h]

theorem ofText?_iff : ofText? raw = some a ↔ a.toText = raw ∧ ∀ part ∈ a.leading, colon ∉ part := by
  constructor
  · intro h
    exact ⟨toText_of_ofText? h, leading_of_ofText? h⟩
  · rintro ⟨rfl, h⟩
    exact ofText?_toText.mpr h

theorem parse_eq_ok : parse raw = .ok a ↔ ofText? raw = some a := by
  unfold parse
  cases ofText? raw <;> simp

theorem parse_eq_error : parse raw = .error (.malformedArn raw) ↔ ofText? raw = none := by
  unfold parse
  cases ofText? raw <;> simp

/-- After its fifth colon, a text is a type, or goes on from it at a slash or a colon. -/
def NamesType (type raw : Text) : Prop :=
  ∃ before rest, raw = before ++ colon :: rest ∧ before.count colon = 4 ∧
    (rest = type ∨ (type ++ [slash]) <+: rest ∨ (type ++ [colon]) <+: rest)

theorem exists_endsType_iff {rest : Text} :
    (∃ p name, endsType p ∧ rest = type ++ p :: name) ↔
      (type ++ [slash]) <+: rest ∨ (type ++ [colon]) <+: rest := by
  constructor
  · rintro ⟨p, name, hp, rfl⟩
    rcases endsType_iff.mp hp with rfl | rfl
    · exact Or.inl ⟨name, (List.append_cons ..).symm⟩
    · exact Or.inr ⟨name, (List.append_cons ..).symm⟩
  · rintro (⟨name, rfl⟩ | ⟨name, rfl⟩)
    · exact ⟨slash, name, rfl, (List.append_cons ..).symm⟩
    · exact ⟨colon, name, rfl, (List.append_cons ..).symm⟩

theorem kindOf_eq_iff (hk : k ≠ .unknown) : kindOf raw = k ↔ NamesType k.name raw := by
  have htype : ∀ p ∈ (k.name : Text), endsType p = false := by
    cases k <;> decide
  constructor
  · intro h
    cases ha : ofText? raw with
    | none =>
      rw [kindOf, ha] at h
      exact absurd h.symm hk
    | some a =>
      rw [kindOf_of_ofText? ha, kind_eq_iff hk, resourceType_eq_iff htype, exists_endsType_iff] at h
      refine ⟨a.front, a.resource, ?_, count_front (leading_of_ofText? ha), h⟩
      rw [← toText_eq, toText_of_ofText? ha]
  · rintro ⟨before, rest, rfl, hcount, h⟩
    cases ha : ofText? (before ++ colon :: rest) with
    | none =>
      rw [ofText?_eq_none_iff, List.count_append, List.count_cons_self] at ha
      omega
    | some a =>
      have heq := toText_of_ofText? ha
      have hfront := count_front (leading_of_ofText? ha)
      rw [toText_eq] at heq
      -- both stand after four colons and one more
      obtain ⟨-, rfl⟩ := append_cons_inj_of_count heq (hfront.trans hcount.symm)
      rw [kindOf_of_ofText? ha, kind_eq_iff hk, resourceType_eq_iff htype, exists_endsType_iff]
      exact h

/-- A text is a name if it has five colons. What is read from it is written as the text, and is the
only name with this text in which no part but the resource holds a colon. The resource is its type,
or its type, a slash or a colon, and its name, where the type ends at the first slash or colon. So
the resource, which is what follows the fifth colon, decides which names are those of roles and
users. -/
theorem parse_iff (raw : Text) (a : Arn) :
    ((∃ b, parse raw = .ok b) ↔ 5 ≤ raw.count colon) ∧
      (parse raw = .error (.malformedArn raw) ↔ raw.count colon < 5) ∧
      (parse raw = .ok a ↔ a.toText = raw ∧ ∀ part ∈ a.leading, colon ∉ part) ∧
      (parse a.toText = .ok a ↔ ∀ part ∈ a.leading, colon ∉ part) ∧
      (a.resource = a.resourceType ∧ a.resourceName = [] ∨
        ∃ p, (p = slash ∨ p = colon) ∧ a.resource = a.resourceType ++ p :: a.resourceName) ∧
      slash ∉ a.resourceType ∧ colon ∉ a.resourceType ∧
      (kindOf raw = .role ↔ NamesType "role" raw) ∧
      (kindOf raw = .user ↔ NamesType "user" raw) := by
  refine ⟨?_, ?_, ?_, ?_, ?_, ?_, ?_, kindOf_eq_iff nofun, kindOf_eq_iff nofun⟩
  · simp only [parse_eq_ok, ← Option.isSome_iff_exists, ← Option.ne_none_iff_isSome, ne_eq,
      ofText?_eq_none_iff, Nat.not_lt]
  · rw [parse_eq_error, ofText?_eq_none_iff]
  · rw [parse_eq_ok, ofText?_iff]
  · rw [parse_eq_ok, ofText?_toText]
  · simpa only [endsType_iff] using a.resource_eq
  · intro h
    exact (endsType_eq_false_iff.mp (a.resourceType_plain _ h)).1 rfl
  · intro h
    exact (endsType_eq_false_iff.mp (a.resourceType_plain _ h)).2 rfl

end Arn

end AuthMap
