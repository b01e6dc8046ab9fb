import AuthMap.Proofs.Cluster.Requests

/-! Which requests write, and what is written. A fetch asks for no write, and a save for one at
most; the object of an accepted write is what was to be saved, at the UID of what it replaces, and
it is kept under the name that it says. -/

namespace AuthMap

def Request.isWrite : Request → Bool
  | .create _ _ | .replace _ _ _ => true
  | .read _ _ | .list _ _ => false

/-- The creations and replacements that have been asked for. -/
def Session.writes (σ : Session) : List Request := σ.requests.filter Request.isWrite

/-- The cluster is as it was, and has not been asked for a write. -/
structure Session.Untouched (σ σ' : Session) : Prop where
  cluster : σ'.cluster = σ.cluster
  writes : σ'.writes = σ.writes

/-- The cluster is as it was, and has been asked for one write at most. -/
def Session.WroteNothing (σ σ' : Session) : Prop :=
  σ'.cluster = σ.cluster ∧ (σ'.writes = σ.writes ∨ ∃ req, σ'.writes = σ.writes ++ [req])

/-- The cluster has been asked for one write, and has accepted it. -/
def Session.WroteOnce (σ σ' : Session) : Prop :=
  ∃ req m, σ'.writes = σ.writes ++ [req] ∧ Work.serve req σ.cluster = (.ok (some m), σ'.cluster)

theorem Work.nextVersion_of_write {req : Request} {c c' : Cluster} {m : ConfigMap}
    (hreq : req.isWrite = true) (h : serve req c = (.ok (some m), c')) :
    c'.nextVersion = c.nextVersion + 1 := by
  cases req with
  | read ns name => cases hreq
  | list ns limit => cases hreq
  | create ns body =>
    simp only [serve, Cluster.create] at h
    cases hobject : c.object? ns (body.name.str?.getD "") with
    | none =>
      rw [hobject] at h
      cases h
      rfl
    | some m =>
      rw [hobject] at h
      cases h
  | replace ns name body =>
    simp only [serve, Cluster.replace] at h
    cases hobject : c.object? ns name with
    | none =>
      rw [hobject] at h
      cases h
    | some m₀ =>
      rw [hobject] at h
      dsimp only at h
      split at h
      · cases h
        rfl
      · cases h

/-! ### Objects under their names -/

namespace Cluster

variable {ns name : String} {c : Cluster}

/-- An object that can be read says where it is kept. -/
def Filed (c : Cluster) : Prop :=
  ∀ ns name m r, c.object? ns name = some m → Resource.ofConfigMap m = .ok r →
    r.ns = ns ∧ r.name = name

theorem find?_put_of_ne {key key' : String × String} (h : key' ≠ key) (m : ConfigMap)
    (os : List ((String × String) × ConfigMap)) :
    (put key m os).find? (fun o => o.1 = key') = os.find? fun o => o.1 = key' := by
  induction os with
  | nil => simp [put, h.symm]
  | cons o os ih =>
    unfold put
    split
    · next ho => simp [ho, h.symm]
    · simp only [List.find?_cons, ih]

theorem filed_put {m : ConfigMap} (hc : c.Filed)
    (hm : ∀ r, Resource.ofConfigMap m = .ok r → r.ns = ns ∧ r.name = name) :
    { c with objects := put (ns, name) m c.objects }.Filed := by
  intro ns' name' m' r hobject hr
  by_cases hkey : (ns', name') = (ns, name)
  · obtain ⟨rfl, rfl⟩ := Prod.mk.inj hkey
    simp only [object?, find?_put, Option.map_some, Option.some.injEq] at hobject
    subst hobject
    exact hm r hr
  · simp only [object?, find?_put_of_ne hkey] at hobject
    exact hc ns' name' m' r hobject hr

theorem filed_write (hc : c.Filed) (r : Resource) (uid : Json) :
    (c.write r.ns r.name uid r.toConfigMap).2.Filed := by
  refine filed_put hc fun r' hr' => ?_
  obtain ⟨hname, hns, -⟩ := Resource.ofConfigMap_eq_ok hr'
  exact ⟨(Json.str_asString_eq_ok hns).symm, (Json.str_asString_eq_ok hname).symm⟩

theorem object?_of_read {m : ConfigMap}
    (h : (Work.serve (.read ns name) c).1 = .ok (some m)) : c.object? ns name = some m := by
  have hread : (c.read ns name).map some = .ok (some m) := h
  unfold read at hread
  cases hobject : c.object? ns name with
  | none =>
    rw [hobject] at hread
    cases hread
  | some m' =>
    rw [hobject] at hread
    cases hread
    rfl

end Cluster

/-! ### Sessions -/

namespace Session

variable {σ σ' σ'' : Session} {req : Request} {answer : Except Raised (Option ConfigMap)}

theorem untouched_logged (σ : Session) (es : List Event) : σ.Untouched (σ.logged es) := ⟨rfl, rfl⟩

theorem Untouched.refl (σ : Session) : σ.Untouched σ := ⟨rfl, rfl⟩

theorem Untouched.wroteNothing (h : σ.Untouched σ') : σ.WroteNothing σ' :=
  ⟨h.cluster, Or.inl h.writes⟩

theorem WroteNothing.after (h : σ.Untouched σ') (h' : σ'.WroteNothing σ'') :
    σ.WroteNothing σ'' := by
  obtain ⟨hcluster, hwrites⟩ := h'
  rw [h.cluster] at hcluster
  rw [h.writes] at hwrites
  exact ⟨hcluster, hwrites⟩

theorem WroteOnce.after (h : σ.Untouched σ') (h' : σ'.WroteOnce σ'') : σ.WroteOnce σ'' := by
  obtain ⟨req, m, hwrites, hserve⟩ := h'
  rw [h.writes] at hwrites
  rw [h.cluster] at hserve
  exact ⟨req, m, hwrites, hserve⟩

theorem WroteOnce.before (h : σ.WroteOnce σ') (h' : σ'.Untouched σ'') : σ.WroteOnce σ'' := by
  obtain ⟨req, m, hwrites, hserve⟩ := h
  rw [← h'.writes] at hwrites
  rw [← h'.cluster] at hserve
  exact ⟨req, m, hwrites, hserve⟩

/-- An accepted write does not leave the cluster as it was. -/
theorem WroteNothing.not_wroteOnce (h : σ.WroteNothing σ') : ¬ σ.WroteOnce σ' := by
  rintro ⟨req, m, hwrites, hserve⟩
  have hreq : req.isWrite = true := by
    have hmem : req ∈ σ'.writes := by simp [hwrites]
    exact (List.mem_filter.mp hmem).2
  have hnext := Work.nextVersion_of_write hreq hserve
  rw [h.1] at hnext
  exact absurd hnext (Nat.ne_of_lt (Nat.lt_succ_self _))

theorem Asked.writes (h : σ.Asked req answer σ') :
    σ'.writes = σ.writes ++ [req].filter Request.isWrite := by
  rw [Session.writes, h.requests, List.filter_append]
  rfl

theorem Asked.untouched_of_read {ns name : String} (h : σ.Asked (.read ns name) answer σ') :
    σ.Untouched σ' := by
  refine ⟨?_, h.writes.trans (List.append_nil _)⟩
  rcases h.answered with ⟨-, hserve⟩ | ⟨-, hcluster, -⟩
  · exact congrArg Prod.snd hserve
  · exact hcluster

end Session

namespace Gateway

variable {g : Gateway} {r : Resource} {σ : Session}

/-! ### What a fetch gives -/

/-- A fetch gives an empty object of the configuration, or what the cluster holds there. -/
def Fetches (g : Gateway) (c : Cluster) (r : Resource) : Prop :=
  r = g.blank ∨
    ∃ m, c.object? g.config.ns g.config.name = some m ∧ Resource.ofConfigMap m = .ok r

theorem fetches_of_asked {answer : Except Raised (Option ConfigMap)} {σ' : Session}
    (hasked : σ.Asked (.read g.config.ns g.config.name) answer σ')
    (hr : g.fetched answer = .ok r) : g.Fetches σ.cluster r := by
  obtain ⟨m, hread, hm⟩ := Except.bind_eq_ok.mp hr
  cases m with
  | none => exact Or.inl (Except.ok.inj hm).symm
  | some m =>
    have hanswer : answer = .ok (some m) := by
      unfold readObject at hread
      split at hread
      · rw [Except.ok.inj hread]
      · cases hread
      · cases hread
    rcases hasked.answered with ⟨-, hserve⟩ | ⟨-, -, e, herror⟩
    · rw [hanswer] at hserve
      exact Or.inr ⟨m, Cluster.object?_of_read (congrArg Prod.fst hserve).symm, hm⟩
    · rw [herror] at hanswer
      cases hanswer

/-- A fetch does not change anything, and does not try to. -/
theorem fetch_cases (g : Gateway) (σ : Session) :
    ∃ x σ', g.fetch σ = Work.result x σ' ∧ σ.Untouched σ' ∧
      ∀ r, x = .ok r → g.Fetches σ.cluster r := by
  cases hapi : g.api with
  | false =>
    refine ⟨.error (.store (g.notConnected notStarted)), σ, ?_, ⟨rfl, rfl⟩, nofun⟩
    rw [fetch, ensureStarted_of_not_api hapi]
    rfl
  | true =>
    obtain ⟨answer, σ', hasked, hfetch⟩ := fetch_asked hapi σ
    exact ⟨_, σ', hfetch, hasked.untouched_of_read, fun r hr => fetches_of_asked hasked hr⟩

/-! ### What a save writes -/

/-- The write of a save has been accepted. An object is created where there is none, and one that
is there is replaced if it is at the version of what is written. -/
inductive Accepted (r : Resource) (c : Cluster) (m : ConfigMap) (c' : Cluster) : Prop
  | created (hr : r.exists? = false) (hobject : c.object? r.ns r.name = none)
    (hwrite : { c with created := c.created + 1 }.write r.ns r.name (.str c.freshUid)
      r.toConfigMap = (m, c'))
  | replaced (m₀ : ConfigMap) (hr : r.exists? = true) (hobject : c.object? r.ns r.name = some m₀)
    (hversion : Cluster.sameVersion r.toConfigMap.version m₀.version = true)
    (hwrite : c.write r.ns r.name m₀.uid r.toConfigMap = (m, c'))

/-- A write that is not accepted leaves the cluster as it was. -/
theorem serve_saveRequest_cases (r : Resource) (c : Cluster) :
    (∃ e, Work.serve (saveRequest r) c = (.error e, c)) ∨
      ∃ m c', Work.serve (saveRequest r) c = (.ok (some m), c') ∧ Accepted r c m c' := by
  cases hr : r.exists? with
  | false =>
    rw [saveRequest_create hr, Cluster.create]
    cases hobject : c.object? r.ns r.name with
    | some m => exact Or.inl ⟨_, rfl⟩
    | none =>
      refine Or.inr ⟨_, _, ?_, .created hr hobject rfl⟩
      rw [Cluster.freshUid, Text.ofString_append]
      rfl
  | true =>
    rw [saveRequest_replace hr, Cluster.replace]
    cases hobject : c.object? r.ns r.name with
    | none => exact Or.inl ⟨_, rfl⟩
    | some m =>
      dsimp only
      split
      · next hversion => exact Or.inr ⟨_, _, rfl, .replaced m hr hobject hversion rfl⟩
      · exact Or.inl ⟨_, rfl⟩

variable {c c' : Cluster} {m : ConfigMap}

theorem Accepted.exists_write (h : Accepted r c m c') :
    ∃ (c₁ : Cluster) (uid : Json), c₁.objects = c.objects ∧
      c₁.write r.ns r.name uid r.toConfigMap = (m, c') := by
  cases h with
  | created hr hobject hwrite => exact ⟨{ c with created := c.created + 1 }, _, rfl, hwrite⟩
  | replaced m₀ hr hobject hversion hwrite => exact ⟨_, _, rfl, hwrite⟩

theorem Accepted.object?_self (h : Accepted r c m c') : c'.object? r.ns r.name = some m := by
  obtain ⟨c₁, uid, -, hwrite⟩ := h.exists_write
  obtain ⟨rfl, rfl⟩ := Prod.mk.inj hwrite
  exact Cluster.object?_write uid r.toConfigMap

theorem Accepted.object?_of_ne {ns name : String} (h : Accepted r c m c')
    (hne : (ns, name) ≠ (r.ns, r.name)) : c'.object? ns name = c.object? ns name := by
  obtain ⟨c₁, uid, hobjects, hwrite⟩ := h.exists_write
  have hc' : c'.objects = Cluster.put (r.ns, r.name) m c₁.objects := by
    obtain ⟨rfl, rfl⟩ := Prod.mk.inj hwrite
    rfl
  rw [Cluster.object?, hc', Cluster.find?_put_of_ne hne, hobjects, Cluster.object?]

theorem Accepted.filed (h : Accepted r c m c') (hc : c.Filed) : c'.Filed := by
  obtain ⟨c₁, uid, hobjects, hwrite⟩ := h.exists_write
  have hc₁ : c₁.Filed := by
    simpa only [Cluster.Filed, Cluster.object?, hobjects] using hc
  have hfiled := Cluster.filed_write hc₁ r uid
  rwa [hwrite] at hfiled

/-- A save fails and leaves the cluster as it was, or its write is accepted and what has been
written is read back. -/
theorem save_cases (g : Gateway) (r : Resource) (σ : Session) :
    ∃ x σ', g.save r σ = Work.result x σ' ∧
      (σ.WroteNothing σ' ∧ (∃ t, x = .error t) ∨
        ∃ m, σ.WroteOnce σ' ∧ Accepted r σ.cluster m σ'.cluster ∧ x = Resource.ofConfigMap m) := by
  cases hapi : g.api with
  | false =>
    refine ⟨.error (.store (g.notConnected notStarted)), σ, ?_, Or.inl ⟨⟨rfl, Or.inl rfl⟩, _, rfl⟩⟩
    rw [save, ensureStarted_of_not_api hapi]
    rfl
  | true =>
    obtain ⟨answer, σ', hasked, hsave⟩ := save_asked hapi r σ
    have hwrites : σ'.writes = σ.writes ++ [saveRequest r] := by
      rw [hasked.writes]
      unfold saveRequest
      split <;> rfl
    refine ⟨_, σ', hsave, ?_⟩
    rcases hasked.answered with ⟨-, hserve⟩ | ⟨-, hcluster, e, rfl⟩
    · rcases serve_saveRequest_cases r σ.cluster with ⟨e, hrefused⟩ | ⟨m, c', hok, haccepted⟩
      · rw [hrefused] at hserve
        obtain ⟨rfl, hcluster⟩ := Prod.mk.inj hserve
        exact Or.inl ⟨⟨hcluster, Or.inr ⟨_, hwrites⟩⟩, _, rfl⟩
      · rw [hok] at hserve
        obtain ⟨rfl, rfl⟩ := Prod.mk.inj hserve
        exact Or.inr ⟨m, ⟨_, m, hwrites, hok⟩, haccepted, rfl⟩
    · exact Or.inl ⟨⟨hcluster, Or.inr ⟨_, hwrites⟩⟩, _, rfl⟩

end Gateway

end AuthMap
