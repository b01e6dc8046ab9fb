import AuthMap.Proofs.Codec.RoundTrip

/-! A new record is checked by the name it is given and is stored by its text, which may be cut at
other places. Both say the same of a principal that is given as a text, and of a name with no colon
before its resource. -/

namespace AuthMap

namespace Identity

variable {r : Identity}

/-- A record that can be written as an entry, and that goes to the roles or to the users. -/
structure Storable (r : Identity) : Prop where
  entry : r.toMapping = .ok (.obj (r.fields (arnKey r.kind)))
  filed : split [r] = .ok ([r].filter fun r => r.kind = .role, [r].filter fun r => r.kind = .user)

theorem storable_of_kind (h : r.kind ≠ .unknown) : r.Storable where
  entry := toMapping_of_kind h
  filed := by
    have hclassified : Snapshot.Classified { records := [r] } := by
      simpa [Snapshot.Classified] using h
    exact Snapshot.split_of_classified hclassified

theorem split_of_unknown (h : r.kind = .unknown) : ∃ e, split [r] = .error e := by
  simp [split, h]

end Identity

namespace Principal

variable {p : Principal}

/-- What a check of a new record promises: it accepts the principals whose text names a role or a
user, and an accepted record keeps the kind of its principal and can be stored. -/
structure Validated (p : Principal) : Prop where
  accepted : ∀ username groups, (∃ r, newIdentity p username groups = .ok r) ↔
    Arn.kindOf p.toText = .role ∨ Arn.kindOf p.toText = .user
  classified : ∀ username groups r, newIdentity p username groups = .ok r →
    (r.kind = .role ∨ r.kind = .user) ∧ r.kind = p.kind
  stored : ∀ username groups r, newIdentity p username groups = .ok r → r.Storable

theorem known_iff {k : Kind} : k = .role ∨ k = .user ↔ k ≠ .unknown := by
  cases k <;> simp

theorem exists_newIdentity (username : Text) (groups : List Text) :
    (∃ r, newIdentity p username groups = .ok r) ↔ p.kind ≠ .unknown := by
  simp [newIdentity_eq_ok]

theorem validated_of_kind (h : p.kind = Arn.kindOf p.toText) : p.Validated where
  accepted username groups := by rw [exists_newIdentity, known_iff, h]
  classified username groups r hr := by
    obtain ⟨hkind, rfl⟩ := newIdentity_eq_ok.mp hr
    have hrecord : Identity.kind ⟨p.toText, username, groups⟩ = p.kind := h.symm
    exact ⟨known_iff.mpr (hrecord ▸ hkind), hrecord⟩
  stored username groups r hr := by
    obtain ⟨hkind, rfl⟩ := newIdentity_eq_ok.mp hr
    have hrecord : Identity.kind ⟨p.toText, username, groups⟩ = p.kind := h.symm
    exact Identity.storable_of_kind (hrecord ▸ hkind)

theorem Validated.kind_eq (h : p.Validated) : p.kind = Arn.kindOf p.toText := by
  by_cases hkind : p.kind = .unknown
  · have hrefused : ¬ ∃ r, newIdentity p [] [] = .ok r := fun hr =>
      (exists_newIdentity [] []).mp hr hkind
    rw [h.accepted, known_iff, not_not] at hrefused
    rw [hkind, hrefused]
  · obtain ⟨r, hr⟩ := (exists_newIdentity [] []).mpr hkind
    obtain ⟨-, hsame⟩ := h.classified [] [] r hr
    obtain ⟨-, rfl⟩ := newIdentity_eq_ok.mp hr
    exact hsame.symm

/-- The text of the principal is cut where the principal itself is. -/
def CutAlike : Principal → Prop
  | text _ => True
  | arn a => ∀ part ∈ a.leading, colon ∉ part

theorem CutAlike.kind_eq (h : p.CutAlike) : p.kind = Arn.kindOf p.toText := by
  cases p with
  | text raw => rfl
  | arn a => exact (Arn.kindOf_of_ofText? (Arn.ofText?_toText.mpr h)).symm

/-- The check keeps its promise for exactly the principals that are of the kind that their text
names, so for every text and for every name with no colon before its resource. -/
theorem validated_iff (p : Principal) :
    (p.Validated ↔ p.kind = Arn.kindOf p.toText) ∧ (p.CutAlike → p.Validated) := by
  refine ⟨⟨fun h => h.kind_eq, fun h => validated_of_kind h⟩, fun h => ?_⟩
  exact validated_of_kind h.kind_eq

/-- The name is that of a role, and its text is cut inside the account. -/
theorem not_validated_account :
    let a : Arn := ⟨"arn", "aws", "iam", "", "1:2", "role/ops"⟩
    let r : Identity := ⟨"arn:aws:iam::1:2:role/ops", "ops", []⟩
    newIdentity (.arn a) "ops" [] = .ok r ∧ r.kind = .unknown ∧
      (∃ e, r.toMapping = .error e) ∧ (∃ e, split [r] = .error e) ∧ ¬ (arn a).Validated := by
  intro a r
  have hnew : newIdentity (.arn a) "ops" [] = .ok r :=
    newIdentity_eq_ok.mpr ⟨by decide, by decide⟩
  have hkind : r.kind = .unknown := by decide
  refine ⟨hnew, hkind, ⟨_, rfl⟩, Identity.split_of_unknown hkind, fun h => ?_⟩
  rcases (h.classified "ops" [] r hnew).1 with hrole | huser
  · simp [hkind] at hrole
  · simp [hkind] at huser

end Principal

end AuthMap
