import AuthMap.Identity

/-! Names are read from the texts with five colons or more, and are written as they were read, so
that a principal may be given as a text or as the name that is read from it. -/

namespace AuthMap

def colon : Text.CodePoint := .char ':'

/-! ### Cutting -/

theorem Text.cut_eq_none {α : Type} {isSep : α → Bool} {cs part : List α}
    (h : cut isSep cs = (part, none)) : part = cs ∧ ∀ c ∈ cs, isSep c = false := by
  induction cs generalizing part with
  | nil =>
    cases h
    exact ⟨rfl, by simp⟩
  | cons c cs ih =>
    unfold cut at h
    split at h
    · cases h
    · next hc =>
      obtain ⟨rfl, hrest⟩ := Prod.mk.inj h
      obtain ⟨hpart, hcs⟩ := ih (Prod.ext rfl hrest)
      refine ⟨congrArg (c :: ·) hpart, ?_⟩
      rw [List.forall_mem_cons]
      exact ⟨by simpa using hc, hcs⟩

theorem Text.cut_eq_some {α : Type} {isSep : α → Bool} {cs part rest : List α}
    (h : cut isSep cs = (part, some rest)) :
    ∃ c, isSep c = true ∧ cs = part ++ c :: rest ∧ ∀ c ∈ part, isSep c = false := by
  induction cs generalizing part with
  | nil => cases h
  | cons c cs ih =>
    unfold cut at h
    split at h
    · next hc =>
      cases h
      exact ⟨c, hc, rfl, by simp⟩
    · next hc =>
      obtain ⟨rfl, hrest⟩ := Prod.mk.inj h
      obtain ⟨sep, hsep, hcs, hpart⟩ := ih (Prod.ext rfl hrest)
      rw [List.forall_mem_cons]
      exact ⟨sep, hsep, by rw [List.cons_append, ← hcs], by simpa using hc, hpart⟩

theorem Text.cut_append {α : Type} {isSep : α → Bool} {part : List α} {sep : α}
    (hpart : ∀ c ∈ part, isSep c = false) (hsep : isSep sep = true) (rest : List α) :
    cut isSep (part ++ sep :: rest) = (part, some rest) := by
  induction part with
  | nil => simp [cut, hsep]
  | cons c cs ih =>
    rw [List.forall_mem_cons] at hpart
    simp [cut, hpart.1, ih hpart.2]

theorem cutColons_append (n : Nat) {part : Text} (h : colon ∉ part) (rest : Text) :
    cutColons (n + 1) (part ++ colon :: rest) = part :: cutColons n rest := by
  have hpart : ∀ c ∈ part, decide (c = .char ':') = false := by
    intro c hc
    rw [decide_eq_false_iff_not]
    rintro rfl
    exact h hc
  rw [cutColons, Text.cut_append hpart (by simp [colon])]

theorem length_cutColons (n : Nat) (t : Text) :
    (cutColons n t).length = min n (t.count colon) + 1 := by
  induction n generalizing t with
  | zero => simp [cutColons]
  | succ n ih =>
    unfold cutColons
    split
    · next part hcut =>
      obtain ⟨-, hnone⟩ := Text.cut_eq_none hcut
      have hcount : t.count colon = 0 :=
        List.count_eq_zero.mpr fun hmem => by simpa [colon] using hnone colon hmem
      simp [hcount]
    · next part rest hcut =>
      obtain ⟨c, hc, rfl, hpart⟩ := Text.cut_eq_some hcut
      obtain rfl : c = colon := by simpa [colon] using hc
      have hcount : part.count colon = 0 :=
        List.count_eq_zero.mpr fun hmem => by simpa [colon] using hpart colon hmem
      rw [List.length_cons, ih, List.count_append, hcount, List.count_cons_self]
      omega

/-- Only the last part may hold a colon. -/
theorem not_mem_of_mem_cutColons {n : Nat} {t part : Text} (h : part ∈ (cutColons n t).dropLast) :
    colon ∉ part := by
  induction n generalizing t with
  | zero => simp [cutColons] at h
  | succ n ih =>
    unfold cutColons at h
    split at h
    · simp at h
    · next first rest hcut =>
      have hne : cutColons n rest ≠ [] := List.ne_nil_of_length_pos (by simp [length_cutColons])
      rw [List.dropLast_cons_of_ne_nil hne] at h
      rcases List.mem_cons.mp h with rfl | h
      · obtain ⟨-, -, -, hfirst⟩ := Text.cut_eq_some hcut
        intro hmem
        simpa [colon] using hfirst colon hmem
      · exact ih h

theorem intercalate_cutColons (n : Nat) (t : Text) : [colon].intercalate (cutColons n t) = t := by
  induction n generalizing t with
  | zero => simp [cutColons]
  | succ n ih =>
    unfold cutColons
    split
    · next part hcut =>
      obtain ⟨rfl, -⟩ := Text.cut_eq_none hcut
      simp
    · next part rest hcut =>
      obtain ⟨c, hc, rfl, -⟩ := Text.cut_eq_some hcut
      obtain rfl : c = colon := by simpa [colon] using hc
      have hne : cutColons n rest ≠ [] := List.ne_nil_of_length_pos (by simp [length_cutColons])
      obtain ⟨next, parts, hparts⟩ := List.exists_cons_of_ne_nil hne
      have hrest := ih rest
      rw [hparts] at hrest ⊢
      rw [List.intercalate_cons_cons, hrest]
      simp

namespace Arn

variable {t : Text} {a : Arn}

theorem ofText?_eq_some (h : ofText? t = some a) :
    cutColons 5 t = [a.scheme, a.partition, a.service, a.region, a.account, a.resource] := by
  unfold ofText? at h
  split at h
  · next hcut =>
    rw [hcut, ← Option.some.inj h]
  · cases h

theorem toText_of_ofText? (h : ofText? t = some a) : a.toText = t := by
  have hjoined := intercalate_cutColons 5 t
  rw [ofText?_eq_some h] at hjoined
  rw [← hjoined]
  simp [toText, List.intercalate_cons_cons, colon]

theorem ofText?_eq_none_iff : ofText? t = none ↔ t.count colon < 5 := by
  have hlength := length_cutColons 5 t
  constructor
  · intro h
    refine Nat.lt_of_not_le fun hcount => ?_
    have hsix : (cutColons 5 t).length = 6 := by omega
    obtain ⟨p₁, p₂, p₃, p₄, p₅, p₆, hcut⟩ :
        ∃ p₁ p₂ p₃ p₄ p₅ p₆, cutColons 5 t = [p₁, p₂, p₃, p₄, p₅, p₆] := by
      match cutColons 5 t, hsix with
      | [_, _, _, _, _, _], _ => exact ⟨_, _, _, _, _, _, rfl⟩
    rw [ofText?, hcut] at h
    cases h
  · intro hcount
    cases h : ofText? t with
    | none => rfl
    | some a =>
      rw [ofText?_eq_some h] at hlength
      simp only [List.length_cons, List.length_nil] at hlength
      omega

/-- The parts that a colon ends. -/
def leading (a : Arn) : List Text := [a.scheme, a.partition, a.service, a.region, a.account]

/-- A name is what is read from its text if its parts are where the colons of the text are. -/
theorem ofText?_toText : ofText? a.toText = some a ↔ ∀ part ∈ a.leading, colon ∉ part := by
  constructor
  · intro h part hpart
    apply not_mem_of_mem_cutColons (n := 5) (t := a.toText)
    rw [ofText?_eq_some h]
    exact hpart
  · intro h
    have hcut : cutColons 5 a.toText =
        [a.scheme, a.partition, a.service, a.region, a.account, a.resource] := by
      simp only [leading, List.forall_mem_cons] at h
      obtain ⟨hscheme, hpartition, hservice, hregion, haccount, -⟩ := h
      calc cutColons 5 a.toText
        _ = cutColons 5 (a.scheme ++ colon :: (a.partition ++ colon :: (a.service ++ colon ::
            (a.region ++ colon :: (a.account ++ colon :: a.resource))))) := rfl
        _ = _ := by
          rw [cutColons_append _ hscheme, cutColons_append _ hpartition,
            cutColons_append _ hservice, cutColons_append _ hregion, cutColons_append _ haccount,
            cutColons]
    rw [ofText?, hcut]

theorem kindOf_of_ofText? (h : ofText? t = some a) : kindOf t = a.kind := by simp [kindOf, h]

theorem requireKind_of_kind (h : a.kind ≠ .unknown) : a.requireKind = .ok a.kind := by
  cases hk : a.kind <;> simp_all [requireKind]

theorem requireKind_of_unknown (h : a.kind = .unknown) :
    a.requireKind = .error (.unclassifiedArn a.toText a.resourceType) := by
  simp only [requireKind, h]

theorem map_requireKind_eq_ok {α : Type} {x y : α} :
    (a.requireKind.map fun _ => x) = .ok y ↔ a.kind ≠ .unknown ∧ y = x := by
  by_cases h : a.kind = .unknown
  · simp [requireKind_of_unknown h, h, Except.map]
  · simp [requireKind_of_kind h, h, Except.map, eq_comm]

end Arn

/-! ### Records for a principal -/

def Principal.kind : Principal → Kind
  | .text raw => Arn.kindOf raw
  | .arn a => a.kind

section Records

variable {raw : Text} {a : Arn} (username : Text) (groups : List Text)

theorem newIdentity_arn (h : Arn.ofText? raw = some a) :
    newIdentity (.arn a) username groups = newIdentity (.text raw) username groups := by
  simp only [newIdentity, Arn.parse, h]
  rfl

theorem newIdentity_named (a : Arn) (username : Text) (groups : List Text) :
    newIdentity (.arn a) username groups =
      a.requireKind.map fun _ => ⟨a.toText, username, groups⟩ := by
  simp only [newIdentity, pure, Except.pure, bind, Except.bind]
  cases a.requireKind <;> rfl

theorem newIdentity_text (h : Arn.ofText? raw = some a) :
    newIdentity (.text raw) username groups =
      a.requireKind.map fun _ => ⟨raw, username, groups⟩ := by
  rw [← newIdentity_arn username groups h, newIdentity_named, Arn.toText_of_ofText? h]

theorem newIdentity_of_malformed (h : raw.count colon < 5) :
    newIdentity (.text raw) username groups = .error (.malformedArn raw) := by
  simp only [newIdentity, Arn.parse, Arn.ofText?_eq_none_iff.mpr h]
  rfl

theorem newIdentity_of_unclassified (h : Arn.ofText? raw = some a) (hkind : a.kind = .unknown) :
    newIdentity (.text raw) username groups = .error (.unclassifiedArn raw a.resourceType) := by
  rw [newIdentity_text username groups h, Arn.requireKind_of_unknown hkind,
    Arn.toText_of_ofText? h]
  rfl

theorem newIdentity_of_kind (h : Arn.kindOf raw ≠ .unknown) :
    newIdentity (.text raw) username groups = .ok ⟨raw, username, groups⟩ := by
  cases ha : Arn.ofText? raw with
  | none => exact absurd (by simp [Arn.kindOf, ha]) h
  | some a =>
    rw [Arn.kindOf_of_ofText? ha] at h
    rw [newIdentity_text username groups ha, Arn.requireKind_of_kind h]
    rfl

theorem newIdentity_eq_ok {p : Principal} {username : Text} {groups : List Text} {r : Identity} :
    newIdentity p username groups = .ok r ↔
      p.kind ≠ .unknown ∧ r = ⟨p.toText, username, groups⟩ := by
  cases p with
  | text raw =>
    cases ha : Arn.ofText? raw with
    | none =>
      rw [newIdentity_of_malformed username groups (Arn.ofText?_eq_none_iff.mp ha)]
      simp [Principal.kind, Arn.kindOf, ha]
    | some a =>
      rw [newIdentity_text username groups ha, Arn.map_requireKind_eq_ok]
      simp [Principal.kind, Principal.toText, Arn.kindOf_of_ofText? ha]
  | arn a => rw [newIdentity_named, Arn.map_requireKind_eq_ok, Principal.kind, Principal.toText]

end Records

end AuthMap
