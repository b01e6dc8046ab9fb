import AuthMap.Proofs.Codec.Stored
import AuthMap.Proofs.Session
import AuthMap.Proofs.Yaml.Blank
import Mathlib.Data.List.Perm.Basic

/-! What the elements of an identity list may be, and what is read from them. An element is read
without a look at the others, and at whether its name is that of a role or a user. -/

namespace AuthMap

open Yaml (Document Element)

theorem fromUTF8?_eq_some {bs : ByteArray} {s : String} :
    String.fromUTF8? bs = some s ↔ bs = s.toUTF8 := by
  unfold String.fromUTF8?
  split
  · next h =>
    rw [Option.some.injEq, eq_comm]
    exact ⟨fun hs => hs ▸ rfl, fun hs => String.toByteArray_inj.mp hs.symm⟩
  · next h => exact iff_of_false nofun fun hs => h (hs ▸ s.isValidUTF8)

theorem exists_forall₂_iff {α β : Type} {p : α → β → Prop} {xs : List α} :
    (∃ ys, List.Forall₂ p xs ys) ↔ ∀ x ∈ xs, ∃ y, p x y := by
  induction xs with
  | nil => simp
  | cons x xs ih =>
    rw [List.forall_mem_cons, ← ih]
    constructor
    · rintro ⟨_, _ | ⟨hy, hys⟩⟩
      exact ⟨⟨_, hy⟩, _, hys⟩
    · rintro ⟨⟨y, hy⟩, ys, hys⟩
      exact ⟨y :: ys, .cons hy hys⟩

/-- Relatives of the same things are related to each other. -/
theorem forall₂_of_forall₂ {α β : Type} {p : α → β → Prop} {q : β → β → Prop}
    (hq : ∀ x y z, p x y → p x z → q y z) {xs : List α} {ys zs : List β}
    (hys : List.Forall₂ p xs ys) (hzs : List.Forall₂ p xs zs) : List.Forall₂ q ys zs := by
  induction hys generalizing zs with
  | nil =>
    cases hzs
    exact .nil
  | cons hy _ ih =>
    obtain - | ⟨hz, hzs⟩ := hzs
    exact .cons (hq _ _ _ hy hz) (ih hzs)

namespace Yaml.Document

variable {d : Document} {key : String} {es : List (Nat × Nat)} {i : Nat}

/-- Something that is not null stands under a key. -/
def Has (d : Document) (key : String) (es : List (Nat × Nat)) (i : Nat) : Prop :=
  d.lookup key es = some i ∧ d.cell i ≠ .scalar .null

/-- A key is absent, or null. -/
def Lacks (d : Document) (key : String) (es : List (Nat × Nat)) : Prop :=
  ∀ i, d.lookup key es = some i → d.cell i = .scalar .null

/-- A string, or bytes that encode one. -/
def HasText (d : Document) (i : Nat) (t : Text) : Prop :=
  d.cell i = .scalar (.text t) ∨
    ∃ s : String, d.cell i = .scalar (.bytes s.toUTF8.data.toList) ∧ t = Text.ofString s

/-- A sequence of texts, or a set of texts with its members in any order. -/
def HasTexts (d : Document) (i : Nat) (ts : List Text) : Prop :=
  (∃ is, d.cell i = .list (is.map .cell) ∧ List.Forall₂ d.HasText is ts) ∨
    ∃ members order, d.cell i = .set members ∧ order.Perm members ∧
      List.Forall₂ d.HasText order ts

def Setless (d : Document) : Prop := ∀ i members, d.cell i ≠ .set members

/-- The elements of a document that is a list. -/
def items? (d : Document) : Option (List Element) :=
  match d.cell d.root with
  | .list items => some items
  | _ => none

theorem cell_root_of_items? {items : List Element} (h : d.items? = some items) :
    d.cell d.root = .list items := by
  unfold items? at h
  split at h
  · next hroot => rw [hroot, Option.some.inj h]
  · cases h

theorem lookupSome_eq_some : d.lookupSome key es = some i ↔ d.Has key es i := by
  rw [lookupSome, Option.filter_eq_some_iff, Has]
  refine and_congr_right fun _ => ?_
  split
  · next h => simp [h]
  · next h => exact iff_of_true rfl h

theorem lookupSome_eq_none : d.lookupSome key es = none ↔ d.Lacks key es := by
  rw [Option.eq_none_iff_forall_ne_some]
  simp only [Ne, lookupSome_eq_some, Has, not_and, not_not]
  rfl

end Yaml.Document

namespace Identity

variable {d : Document} {es : List (Nat × Nat)} {i : Nat} {t : Text} {ts ts' : List Text}
  {e : Element} {r r' : Identity}

/-! ### Fields -/

theorem textAt_eq_ok : textAt d i = .ok t ↔ d.HasText i t := by
  unfold textAt Document.HasText
  split
  · next t' h => simp [h]
  · next bs h =>
    have hbytes (s : String) : bs = s.toUTF8.data.toList ↔
        String.fromUTF8? ⟨bs.toArray⟩ = some s := by
      rw [fromUTF8?_eq_some]
      constructor
      · rintro rfl
        rfl
      · intro hs
        rw [← hs]
    simp only [h, Yaml.Cell.scalar.injEq, Yaml.Scalar.bytes.injEq, hbytes, reduceCtorEq, false_or]
    cases String.fromUTF8? ⟨bs.toArray⟩ <;> simp [eq_comm]
  · next h₁ h₂ =>
    refine iff_of_false nofun ?_
    rintro (h | ⟨s, h, -⟩)
    · exact h₁ t h
    · exact h₂ _ h

theorem mapM_textAt_eq_ok {is : List Nat} :
    is.mapM (textAt d) = .ok ts ↔ List.Forall₂ d.HasText is ts := by
  simp only [Except.mapM_eq_ok, textAt_eq_ok]

theorem mapM_elementText_eq_ok {items : List Element} :
    items.mapM (elementText d) = .ok ts ↔
      ∃ is, items = is.map .cell ∧ List.Forall₂ d.HasText is ts := by
  constructor
  · intro h
    rw [Except.mapM_eq_ok] at h
    induction h with
    | nil => exact ⟨[], rfl, .nil⟩
    | @cons e t _ _ ht _ ih =>
      obtain ⟨is, rfl, his⟩ := ih
      cases e with
      | cell i => exact ⟨i :: is, rfl, .cons (textAt_eq_ok.mp ht) his⟩
      | pair k v => cases ht
  · rintro ⟨is, rfl, h⟩
    rw [List.mapM_map]
    exact mapM_textAt_eq_ok.mpr h

theorem hasTexts_of_textsAt (h : textsAt d i = .ok ts) : d.HasTexts i ts := by
  unfold textsAt at h
  split at h
  · next items hcell =>
    obtain ⟨is, rfl, his⟩ := mapM_elementText_eq_ok.mp h
    exact Or.inl ⟨is, hcell, his⟩
  · next members hcell =>
    exact Or.inr ⟨members, members, hcell, .refl _, mapM_textAt_eq_ok.mp h⟩
  · cases h

theorem textsAt_of_hasTexts (hset : ∀ members, d.cell i ≠ .set members) (h : d.HasTexts i ts) :
    textsAt d i = .ok ts := by
  rcases h with ⟨is, hcell, his⟩ | ⟨members, -, hcell, -⟩
  · simp only [textsAt, hcell]
    exact mapM_elementText_eq_ok.mpr ⟨is, rfl, his⟩
  · exact absurd hcell (hset members)

theorem exists_textsAt (h : d.HasTexts i ts) : ∃ ts', textsAt d i = .ok ts' := by
  by_cases hset : ∀ members, d.cell i ≠ .set members
  · exact ⟨ts, textsAt_of_hasTexts hset h⟩
  rcases h with ⟨is, hcell, -⟩ | ⟨members, order, hcell, horder, htexts⟩
  · exact absurd (fun members h => nomatch hcell.symm.trans h) hset
  have hall := exists_forall₂_iff.mp ⟨ts, htexts⟩
  obtain ⟨ts', hts'⟩ := exists_forall₂_iff.mpr fun j hj => hall j (horder.mem_iff.mpr hj)
  refine ⟨ts', ?_⟩
  simp only [textsAt, hcell]
  exact mapM_textAt_eq_ok.mpr hts'

theorem eq_of_hasTexts (hset : ∀ members, d.cell i ≠ .set members) (h : d.HasTexts i ts)
    (h' : d.HasTexts i ts') : ts = ts' :=
  Except.ok.inj ((textsAt_of_hasTexts hset h).symm.trans (textsAt_of_hasTexts hset h'))

theorem rightUnique_hasText (d : Document) : Relator.RightUnique d.HasText := by
  intro i t t' h h'
  exact Except.ok.inj ((textAt_eq_ok.mpr h).symm.trans (textAt_eq_ok.mpr h'))

theorem perm_of_hasTexts (h : d.HasTexts i ts) (h' : d.HasTexts i ts') : ts.Perm ts' := by
  by_cases hset : ∀ members, d.cell i ≠ .set members
  · rw [eq_of_hasTexts hset h h']
  rcases h with ⟨is, hcell, -⟩ | ⟨members, order, hcell, horder, htexts⟩
  · exact absurd (fun members h => nomatch hcell.symm.trans h) hset
  rcases h' with ⟨is, hcell', -⟩ | ⟨members', order', hcell', horder', htexts'⟩
  · cases hcell.symm.trans hcell'
  cases hcell.symm.trans hcell'
  exact List.rel_perm_imp (rightUnique_hasText d) htexts htexts' (horder.trans horder'.symm)

/-! ### Elements -/

/-- A record is read from the entries of a mapping. The name may be any text, and stands under the
first of its two keys that has something. -/
structure IsReadFrom (d : Document) (es : List (Nat × Nat)) (r : Identity) : Prop where
  arn : ∃ i, (d.Has "rolearn" es i ∨ d.Lacks "rolearn" es ∧ d.Has "userarn" es i) ∧
    d.HasText i r.arn
  username : d.Lacks "username" es ∧ r.username = [] ∨
    ∃ i, d.Has "username" es i ∧ d.HasText i r.username
  groups : d.Lacks "groups" es ∧ r.groups = [] ∨ ∃ i, d.Has "groups" es i ∧ d.HasTexts i r.groups

def IsHeldBy (d : Document) (e : Element) (r : Identity) : Prop :=
  ∃ i es, e = .cell i ∧ d.cell i = .map es ∧ r.IsReadFrom d es

theorem arnAt_eq_some (d : Document) (es : List (Nat × Nat)) (i : Nat) :
    (d.lookupSome "rolearn" es).or (d.lookupSome "userarn" es) = some i ↔
      d.Has "rolearn" es i ∨ d.Lacks "rolearn" es ∧ d.Has "userarn" es i := by
  rw [Option.or_eq_some_iff]
  simp only [Document.lookupSome_eq_some, Document.lookupSome_eq_none]

/-- A field that may be left out. -/
theorem elim_eq_ok {α : Type} {key : String} {f : Nat → Except FieldFault (List α)}
    {holds : Nat → List α → Prop} (hf : ∀ i xs, f i = .ok xs ↔ holds i xs) {xs : List α} :
    (d.lookupSome key es).elim (pure []) f = .ok xs ↔
      d.Lacks key es ∧ xs = [] ∨ ∃ i, d.Has key es i ∧ holds i xs := by
  simp only [← Document.lookupSome_eq_none, ← Document.lookupSome_eq_some]
  cases d.lookupSome key es with
  | none => simp [pure, Except.pure, eq_comm]
  | some i => simp [hf]

theorem readFields_eq_ok {arn : Nat} {username groups : Option Nat} :
    readFields d arn username groups = .ok r ↔ textAt d arn = .ok r.arn ∧
      username.elim (pure []) (textAt d) = .ok r.username ∧
        groups.elim (pure []) (textsAt d) = .ok r.groups := by
  simp only [readFields, Except.bind_eq_ok]
  constructor
  · rintro ⟨_, harn, _, husername, _, hgroups, h⟩
    cases h
    exact ⟨harn, husername, hgroups⟩
  · rintro ⟨harn, husername, hgroups⟩
    exact ⟨_, harn, _, husername, _, hgroups, rfl⟩

theorem readFields_lookupSome {arn : Nat} :
    readFields d arn (d.lookupSome "username" es) (d.lookupSome "groups" es) = .ok r ↔
      d.HasText arn r.arn ∧
        (d.Lacks "username" es ∧ r.username = [] ∨
          ∃ i, d.Has "username" es i ∧ d.HasText i r.username) ∧
        (d.Lacks "groups" es ∧ r.groups = [] ∨
          ∃ i, d.Has "groups" es i ∧ textsAt d i = .ok r.groups) := by
  rw [readFields_eq_ok, textAt_eq_ok, elim_eq_ok fun _ _ => textAt_eq_ok,
    elim_eq_ok fun _ _ => Iff.rfl]

theorem ofEntries_eq_ok : ofEntries d es = .ok r ↔
    (∃ i, (d.Has "rolearn" es i ∨ d.Lacks "rolearn" es ∧ d.Has "userarn" es i) ∧
      d.HasText i r.arn) ∧
    (d.Lacks "username" es ∧ r.username = [] ∨
      ∃ i, d.Has "username" es i ∧ d.HasText i r.username) ∧
    (d.Lacks "groups" es ∧ r.groups = [] ∨
      ∃ i, d.Has "groups" es i ∧ textsAt d i = .ok r.groups) := by
  simp only [← arnAt_eq_some]
  unfold ofEntries
  split
  · next hnone =>
    rw [hnone]
    exact iff_of_false nofun nofun
  · next i hsome =>
    simp only [hsome, Option.some.injEq, exists_eq_left', ← readFields_lookupSome]
    split
    · next hread => rw [hread, Except.ok.injEq, Except.ok.injEq]
    · next hread =>
      rw [hread]
      cases d.shown? i <;> exact iff_of_false nofun nofun

theorem isReadFrom_of_ofEntries (h : ofEntries d es = .ok r) : r.IsReadFrom d es := by
  obtain ⟨harn, husername, hgroups⟩ := ofEntries_eq_ok.mp h
  refine ⟨harn, husername, hgroups.imp id ?_⟩
  rintro ⟨i, hi, htexts⟩
  exact ⟨i, hi, hasTexts_of_textsAt htexts⟩

theorem exists_ofEntries (h : r.IsReadFrom d es) : ∃ r', ofEntries d es = .ok r' := by
  rcases h.groups with hnone | ⟨i, hi, htexts⟩
  · exact ⟨r, ofEntries_eq_ok.mpr ⟨h.arn, h.username, Or.inl hnone⟩⟩
  · obtain ⟨ts, hts⟩ := exists_textsAt htexts
    exact ⟨{ r with groups := ts },
      ofEntries_eq_ok.mpr ⟨h.arn, h.username, Or.inr ⟨i, hi, hts⟩⟩⟩

theorem isHeldBy_of_ofElement (h : ofElement d e = .ok r) : r.IsHeldBy d e := by
  unfold ofElement at h
  split at h
  · cases h
  · next i =>
    split at h
    · next es hcell => exact ⟨i, es, rfl, hcell, isReadFrom_of_ofEntries h⟩
    · cases h

theorem exists_ofElement (h : r.IsHeldBy d e) : ∃ r', ofElement d e = .ok r' := by
  obtain ⟨i, es, rfl, hcell, hread⟩ := h
  simp only [ofElement, hcell]
  exact exists_ofEntries hread

theorem exists_ofElement_iff :
    (∃ r, ofElement d e = .ok r) ↔ ∃ r : Identity, r.IsHeldBy d e :=
  ⟨fun ⟨r, hr⟩ => ⟨r, isHeldBy_of_ofElement hr⟩, fun ⟨_, hr⟩ => exists_ofElement hr⟩

theorem exists_fault :
    (∃ fault, ofElement d e = .error fault) ↔ ¬ ∃ r : Identity, r.IsHeldBy d e := by
  rw [← exists_ofElement_iff]
  cases ofElement d e <;> simp

/-! ### The order of groups -/

/-- The same record, maybe with its groups in another order. -/
structure Alike (r r' : Identity) : Prop where
  arn : r.arn = r'.arn
  username : r.username = r'.username
  groups : r.groups.Perm r'.groups

theorem related_of_field {α : Type} {key : String} {holds : Nat → List α → Prop}
    {q : List α → List α → Prop} (hnil : q [] [])
    (hq : ∀ ⦃i xs ys⦄, holds i xs → holds i ys → q xs ys) {xs ys : List α}
    (hxs : d.Lacks key es ∧ xs = [] ∨ ∃ i, d.Has key es i ∧ holds i xs)
    (hys : d.Lacks key es ∧ ys = [] ∨ ∃ i, d.Has key es i ∧ holds i ys) : q xs ys := by
  rcases hxs with ⟨hlacks, rfl⟩ | ⟨i, hi, hxs⟩
  · rcases hys with ⟨-, rfl⟩ | ⟨j, hj, -⟩
    · exact hnil
    · exact absurd (hlacks j hj.1) hj.2
  · rcases hys with ⟨hlacks, -⟩ | ⟨j, hj, hys⟩
    · exact absurd (hlacks i hi.1) hi.2
    · obtain rfl : i = j := Option.some.inj (hi.1.symm.trans hj.1)
      exact hq hxs hys

/-- Two records that one element holds differ in their groups at most. -/
theorem IsHeldBy.related {q : List Text → List Text → Prop} (hnil : q [] [])
    (hq : ∀ ⦃i ts ts'⦄, d.HasTexts i ts → d.HasTexts i ts' → q ts ts')
    (h : r.IsHeldBy d e) (h' : r'.IsHeldBy d e) :
    r.arn = r'.arn ∧ r.username = r'.username ∧ q r.groups r'.groups := by
  obtain ⟨i, es, rfl, hcell, hread⟩ := h
  obtain ⟨i', es', he, hcell', hread'⟩ := h'
  cases he
  cases hcell.symm.trans hcell'
  have husername : r.username = r'.username :=
    related_of_field rfl (rightUnique_hasText d) hread.username hread'.username
  have hgroups := related_of_field hnil hq hread.groups hread'.groups
  refine ⟨?_, husername, hgroups⟩
  obtain ⟨j, hj, harn⟩ := hread.arn
  obtain ⟨j', hj', harn'⟩ := hread'.arn
  rw [← arnAt_eq_some] at hj hj'
  obtain rfl : j = j' := Option.some.inj (hj.symm.trans hj')
  exact rightUnique_hasText d harn harn'

theorem IsHeldBy.alike (h : r.IsHeldBy d e) (h' : r'.IsHeldBy d e) : r.Alike r' := by
  obtain ⟨harn, husername, hgroups⟩ := h.related (.refl _) (fun _ _ _ => perm_of_hasTexts) h'
  exact ⟨harn, husername, hgroups⟩

theorem IsHeldBy.unique (hd : d.Setless) (h : r.IsHeldBy d e) (h' : r'.IsHeldBy d e) : r = r' := by
  obtain ⟨arn, username, groups⟩ := r
  obtain ⟨arn', username', groups'⟩ := r'
  obtain ⟨rfl, rfl, rfl⟩ := h.related rfl (fun i _ _ => eq_of_hasTexts (hd i)) h'
  rfl

end Identity

/-! ### Lists -/

/-- The first element that holds no record, by its number, and what is wrong with it. Where members
of a set are no texts, that is said of the one written first. -/
def Yaml.Document.FirstUnread (d : Document) (items : List Element) (n : Nat)
    (fault : EntryFault) : Prop :=
  ∃ before e after, items = before ++ e :: after ∧ before.length = n ∧
    (∀ x ∈ before, ∃ r : Identity, r.IsHeldBy d x) ∧ (¬ ∃ r : Identity, r.IsHeldBy d e) ∧
      Identity.ofElement d e = .error fault

section Lists

variable {d : Document} {key text : String} {data : Data} {items : List Element}
  {rs : List Identity} {t : Trouble}

theorem loadEntries_of_list (hget : data.get? key = some text)
    (hload : Document.ofChars text.toList = .ok (some d)) (hroot : d.cell d.root = .list items) :
    loadEntries key data = .ok (d, items) := by
  refine loadEntries_of_ofChars hget (fun htrim => ?_) hload hroot
  obtain ⟨v, hv⟩ := Document.cell_root_of_isBlank (Text.forall_of_trimOf htrim) hload
  rw [hroot] at hv
  cases hv

theorem decodeIdentity_eq_ok {e : Element} {n : Nat} {r : Identity} :
    decodeIdentity key d (e, n) = .ok r ↔ Identity.ofElement d e = .ok r := by
  rw [decodeIdentity]
  cases Identity.ofElement d e <;> simp

theorem decodeIdentity_eq_error {e : Element} {n : Nat} :
    decodeIdentity key d (e, n) = .error t ↔ ∃ fault, Identity.ofElement d e = .error fault ∧
      t = .store (.undecodable key (.entry n fault)) := by
  rw [decodeIdentity]
  cases Identity.ofElement d e <;> simp [eq_comm]

theorem mapM_decodeIdentity_eq_ok {n : Nat} :
    (items.zipIdx n).mapM (decodeIdentity key d) = .ok rs ↔
      List.Forall₂ (fun e r => Identity.ofElement d e = .ok r) items rs := by
  rw [Except.mapM_eq_ok]
  induction items generalizing n rs with
  | nil => simp
  | cons e items ih =>
    rw [List.zipIdx_cons, List.forall₂_cons_left_iff, List.forall₂_cons_left_iff]
    simp only [decodeIdentity_eq_ok, ih]

theorem mapM_decodeIdentity_eq_error {n : Nat} :
    (items.zipIdx n).mapM (decodeIdentity key d) = .error t ↔ ∃ m fault,
      d.FirstUnread items m fault ∧ t = .store (.undecodable key (.entry (n + m) fault)) := by
  induction items generalizing n with
  | nil => simp [pure, Except.pure, Document.FirstUnread]
  | cons e items ih =>
    rw [List.zipIdx_cons, List.mapM_cons, Except.bind_eq_error, decodeIdentity_eq_error]
    constructor
    · rintro (⟨fault, hfault, ht⟩ | ⟨r, hr, h⟩)
      · have hunread := Identity.exists_fault.mp ⟨fault, hfault⟩
        exact ⟨0, fault, ⟨[], e, items, rfl, rfl, by simp, hunread, hfault⟩, ht⟩
      · rcases Except.bind_eq_error.mp h with h | ⟨rs, -, h⟩
        · obtain ⟨m, fault, ⟨before, bad, after, rfl, rfl, hbefore, hbad⟩, ht⟩ := ih.mp h
          have hheld := Identity.isHeldBy_of_ofElement (decodeIdentity_eq_ok.mp hr)
          have hread := List.forall_mem_cons.mpr ⟨⟨r, hheld⟩, hbefore⟩
          refine ⟨_, fault, ⟨e :: before, bad, after, rfl, rfl, hread, hbad⟩, ?_⟩
          rw [ht, List.length_cons, Nat.add_assoc, Nat.add_comm 1]
        · cases h
    · rintro ⟨m, fault, ⟨before, bad, after, hitems, rfl, hbefore, hbad⟩, ht⟩
      cases before with
      | nil =>
        cases hitems
        exact Or.inl ⟨fault, hbad.2, ht⟩
      | cons x before =>
        cases hitems
        obtain ⟨hread, hbefore⟩ := List.forall_mem_cons.mp hbefore
        obtain ⟨r, hr⟩ := Identity.exists_ofElement_iff.mpr hread
        refine Or.inr ⟨r, decodeIdentity_eq_ok.mpr hr, Except.bind_eq_error.mpr (Or.inl ?_)⟩
        refine ih.mpr ⟨_, fault, ⟨before, bad, after, rfl, rfl, hbefore, hbad⟩, ?_⟩
        rw [ht, List.length_cons, Nat.add_assoc, Nat.add_comm 1]

theorem decodeIdentities_eq_ok (hget : data.get? key = some text)
    (hload : Document.ofChars text.toList = .ok (some d)) (hroot : d.cell d.root = .list items) :
    decodeIdentities key data = .ok rs ↔
      List.Forall₂ (fun e r => Identity.ofElement d e = .ok r) items rs := by
  rw [decodeIdentities, loadEntries_of_list hget hload hroot, Except.bind_ok]
  exact mapM_decodeIdentity_eq_ok

theorem isHeldBy_of_decodeIdentities (hget : data.get? key = some text)
    (hload : Document.ofChars text.toList = .ok (some d)) (hroot : d.cell d.root = .list items)
    (h : decodeIdentities key data = .ok rs) :
    List.Forall₂ (fun e r => Identity.IsHeldBy d e r) items rs :=
  ((decodeIdentities_eq_ok hget hload hroot).mp h).imp fun _ _ => Identity.isHeldBy_of_ofElement

theorem exists_decodeIdentities_iff (hget : data.get? key = some text)
    (hload : Document.ofChars text.toList = .ok (some d)) (hroot : d.cell d.root = .list items) :
    (∃ rs, decodeIdentities key data = .ok rs) ↔ ∀ e ∈ items, ∃ r : Identity, r.IsHeldBy d e := by
  simp only [decodeIdentities_eq_ok hget hload hroot, exists_forall₂_iff,
    Identity.exists_ofElement_iff]

/-- There are no other records than those read, but for the order of groups from a set. -/
theorem exists_alike_of_isHeldBy (hget : data.get? key = some text)
    (hload : Document.ofChars text.toList = .ok (some d)) (hroot : d.cell d.root = .list items)
    (h : List.Forall₂ (fun e r => Identity.IsHeldBy d e r) items rs) :
    ∃ rs', decodeIdentities key data = .ok rs' ∧ List.Forall₂ Identity.Alike rs rs' ∧
      (d.Setless → rs = rs') := by
  obtain ⟨rs', hrs'⟩ :=
    (exists_decodeIdentities_iff hget hload hroot).mpr (exists_forall₂_iff.mp ⟨rs, h⟩)
  have hheld := isHeldBy_of_decodeIdentities hget hload hroot hrs'
  refine ⟨rs', hrs', forall₂_of_forall₂ (fun _ _ _ hr hr' => hr.alike hr') h hheld, ?_⟩
  intro hd
  rw [← List.forall₂_eq_eq_eq]
  exact forall₂_of_forall₂ (fun _ _ _ hr hr' => hr.unique hd hr') h hheld

theorem decodeIdentities_eq_error (hget : data.get? key = some text)
    (hload : Document.ofChars text.toList = .ok (some d)) (hroot : d.cell d.root = .list items) :
    decodeIdentities key data = .error t ↔ ∃ n fault, d.FirstUnread items n fault ∧
      t = .store (.undecodable key (.entry n fault)) := by
  rw [decodeIdentities, loadEntries_of_list hget hload hroot, Except.bind_ok]
  simpa only [Nat.zero_add] using mapM_decodeIdentity_eq_error (n := 0)

/-- A list is read element by element, the groups from a set in some order. It is refused for the
first element that holds no record, whatever comes after, and apart from the key in the error it
does not matter under which key its text stands. -/
theorem decodeIdentities_iff (hget : data.get? key = some text)
    (hload : Document.ofChars text.toList = .ok (some d)) (hroot : d.cell d.root = .list items) :
    (∀ rs, decodeIdentities key data = .ok rs →
        List.Forall₂ (fun e r => Identity.IsHeldBy d e r) items rs) ∧
      (∀ rs, List.Forall₂ (fun e r => Identity.IsHeldBy d e r) items rs →
        ∃ rs', decodeIdentities key data = .ok rs' ∧ List.Forall₂ Identity.Alike rs rs' ∧
          (d.Setless → rs = rs')) ∧
      ((∃ rs, decodeIdentities key data = .ok rs) ↔
        ∀ e ∈ items, ∃ r : Identity, r.IsHeldBy d e) ∧
      (∀ t, decodeIdentities key data = .error t ↔ ∃ n fault, d.FirstUnread items n fault ∧
        t = .store (.undecodable key (.entry n fault))) ∧
      ∀ key' data', Data.get? key' data' = some text →
        (∀ rs, decodeIdentities key' data' = .ok rs ↔ decodeIdentities key data = .ok rs) ∧
          ∀ reason, decodeIdentities key' data' = .error (.store (.undecodable key' reason)) ↔
            decodeIdentities key data = .error (.store (.undecodable key reason)) := by
  refine ⟨fun rs => isHeldBy_of_decodeIdentities hget hload hroot,
    fun rs => exists_alike_of_isHeldBy hget hload hroot,
    exists_decodeIdentities_iff hget hload hroot,
    fun t => decodeIdentities_eq_error hget hload hroot, fun key' data' hget' => ⟨?_, ?_⟩⟩
  · intro rs
    rw [decodeIdentities_eq_ok hget hload hroot, decodeIdentities_eq_ok hget' hload hroot]
  · intro reason
    rw [decodeIdentities_eq_error hget hload hroot, decodeIdentities_eq_error hget' hload hroot]
    simp only [Trouble.store.injEq, StoreError.undecodable.injEq, true_and]

/-- A null name with another under the second key, and a number after it: the first element holds a
record, and the list is refused for the second, as an entry of whichever key. -/
theorem decodeIdentities_iff_number :
    let text := "- rolearn: null\n  userarn: ann\n  groups: !!set \x7bx, y\x7d\n- 7\n- 8\n"
    ∃ d e bad last fault, Document.ofChars text.toList = .ok (some d) ∧
      d.cell d.root = .list [e, bad, last] ∧ Identity.IsHeldBy d e ⟨"ann", [], ["x", "y"]⟩ ∧
        decodeIdentities rolesKey [(rolesKey, text)] =
          .error (.store (.undecodable rolesKey (.entry 1 fault))) ∧
        decodeIdentities usersKey [(usersKey, text)] =
          .error (.store (.undecodable usersKey (.entry 1 fault))) := by
  intro text
  have hread : ((Document.ofChars text.toList).toOption.join.bind fun d =>
      d.items?.map fun items => items.map fun e => (Identity.ofElement d e).toOption) =
        some [some ⟨"ann", [], ["x", "y"]⟩, none, none] := by decide +kernel
  obtain ⟨d, hd, hitems⟩ := Option.bind_eq_some_iff.mp hread
  have hload := Except.eq_ok_of_toOption (Option.join_eq_some_iff.mp hd)
  obtain ⟨items, hroot, helements⟩ := Option.map_eq_some_iff.mp hitems
  obtain ⟨e, rest, rfl, he, hrest⟩ := List.map_eq_cons_iff.mp helements
  obtain ⟨bad, rest, rfl, hbad, hrest⟩ := List.map_eq_cons_iff.mp hrest
  obtain ⟨last, rest, rfl, -, hrest⟩ := List.map_eq_cons_iff.mp hrest
  obtain rfl := List.map_eq_nil_iff.mp hrest
  replace hroot := Document.cell_root_of_items? hroot
  replace he := Except.eq_ok_of_toOption he
  obtain ⟨fault, hbad⟩ := Except.exists_error_of_toOption hbad
  have hheld := Identity.isHeldBy_of_ofElement he
  have hunread : d.FirstUnread [e, bad, last] 1 fault :=
    ⟨[e], bad, [last], rfl, rfl, by simpa using ⟨_, hheld⟩,
      Identity.exists_fault.mp ⟨fault, hbad⟩, hbad⟩
  have hget : Data.get? rolesKey [(rolesKey, text)] = some text := rfl
  obtain ⟨-, -, -, herror, hsame⟩ := decodeIdentities_iff hget hload hroot
  have hroles := (herror _).mpr ⟨1, fault, hunread, rfl⟩
  exact ⟨d, e, bad, last, fault, hload, hroot, hheld, hroles,
    ((hsame usersKey [(usersKey, text)] rfl).2 _).mpr hroles⟩

end Lists

end AuthMap
