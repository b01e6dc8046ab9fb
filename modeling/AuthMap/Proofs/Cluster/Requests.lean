import AuthMap.Gateway
import AuthMap.Proofs.Cluster.Object

/-! What a fetch and a save come to, by the answer to the one request that each of them makes. -/

namespace AuthMap

/-! ### The cluster -/

namespace Cluster

variable {ns name : String} {c : Cluster}

theorem find?_put (key : String × String) (m : ConfigMap)
    (os : List ((String × String) × ConfigMap)) :
    (put key m os).find? (fun o => o.1 = key) = some (key, m) := by
  induction os with
  | nil => simp [put]
  | cons o os ih =>
    unfold put
    split
    · simp
    · next ho => simpa [ho] using ih

theorem object?_write (uid : Json) (body : ConfigMap) :
    (c.write ns name uid body).2.object? ns name = some (c.write ns name uid body).1 := by
  simp [write, object?, find?_put]

end Cluster

/-! ### Requests -/

/-- The session goes on with a cluster. Of the rest, only what is recorded may change. -/
def Session.GoesOn (σ : Session) (c : Cluster) (σ' : Session) : Prop :=
  σ'.cluster = c ∧ σ'.failures = σ.failures

theorem Session.GoesOn.logged (σ : Session) (es : List Event) :
    σ.GoesOn σ.cluster (σ.logged es) := ⟨rfl, rfl⟩

/-- Nothing but what has been logged and which spans have ended may differ. -/
structure Session.Alike (σ σ' : Session) : Prop where
  cluster : σ'.cluster = σ.cluster
  failures : σ'.failures = σ.failures
  requests : σ'.requests = σ.requests

/-- The answer that a request would have: the first failure that meets it, or what the cluster
says. -/
def Session.answerTo (σ : Session) (req : Request) : Except Raised (Option ConfigMap) :=
  match σ.failures.find? fun f => f.1 = req.method with
  | some f => .error f.2
  | none => (Work.serve req σ.cluster).1

/-- One more request has been made. The cluster has answered it, or one of the failures to come has
met it and the cluster is as it was. -/
structure Session.Asked (σ : Session) (req : Request) (answer : Except Raised (Option ConfigMap))
    (σ' : Session) : Prop where
  requests : σ'.requests = σ.requests ++ [req]
  answered : σ'.failures = σ.failures ∧ (answer, σ'.cluster) = Work.serve req σ.cluster ∨
    σ.failures ≠ [] ∧ σ'.cluster = σ.cluster ∧ ∃ e, answer = .error e
  answer_eq : answer = σ.answerTo req

namespace Session

variable {σ σ' σ'' : Session} {req : Request} {answer : Except Raised (Option ConfigMap)}

theorem Alike.trans (h : σ.Alike σ') (h' : σ'.Alike σ'') : σ.Alike σ'' :=
  ⟨h'.cluster.trans h.cluster, h'.failures.trans h.failures, h'.requests.trans h.requests⟩

theorem alike_logged (σ : Session) (es : List Event) : σ.Alike (σ.logged es) := ⟨rfl, rfl, rfl⟩

theorem Asked.alike (h : σ.Asked req answer σ') (h' : σ'.Alike σ'') : σ.Asked req answer σ'' where
  requests := h'.requests.trans h.requests
  answered := by
    rw [h'.cluster, h'.failures]
    exact h.answered
  answer_eq := h.answer_eq

/-- Without failures to come the answer is that of the cluster. -/
theorem Asked.goesOn {c : Cluster} {served : Except Raised (Option ConfigMap)}
    (h : σ.Asked req answer σ') (hf : σ.failures = [])
    (hserve : Work.serve req σ.cluster = (served, c)) : answer = served ∧ σ.GoesOn c σ' := by
  rcases h.answered with ⟨hfailures, hanswer⟩ | ⟨hne, -⟩
  · rw [hserve] at hanswer
    obtain ⟨rfl, hcluster⟩ := Prod.mk.inj hanswer
    exact ⟨rfl, hcluster, hfailures⟩
  · exact absurd hf hne

end Session

namespace Work

variable {α : Type} {σ σ' : Session}

/-- A result with the session that it leaves. -/
def result (x : Except Trouble α) (σ : Session) : EStateM.Result Trouble Session α :=
  match x with
  | .ok a => .ok a σ
  | .error t => .error t σ

theorem request_asked (req : Request) (σ : Session) :
    ∃ answer σ', request req σ = .ok answer σ' ∧ σ.Asked req answer σ' := by
  simp only [request, modifyGet_eq]
  cases hmet : σ.failures.find? fun f => f.1 = req.method with
  | none => exact ⟨_, _, rfl, rfl, Or.inl ⟨rfl, rfl⟩, by simp only [Session.answerTo, hmet]⟩
  | some f =>
    refine ⟨_, _, rfl, rfl, Or.inr ⟨fun hnone => ?_, rfl, f.2, rfl⟩, ?_⟩
    · rw [hnone] at hmet
      cases hmet
    · simp only [Session.answerTo, hmet]

theorem spanned_of_result {work : Work (α × List (String × Json))}
    {x : Except Trouble (α × List (String × Json))} (operation : String)
    (attributes : List (String × Json)) (h : work σ = result x σ') :
    ∃ σ'', spanned operation attributes work σ = result (x.map (·.1)) σ'' ∧ σ'.Alike σ'' := by
  cases x <;>
  · simp only [spanned, h, result]
    exact ⟨_, rfl, rfl, rfl, rfl⟩

end Work

namespace Gateway

variable {g : Gateway} {σ : Session} {r : Resource}

/-- How an exception from a request is reported. -/
def reported (operation name ns : String) (e : Raised) : StoreError :=
  let f : Failure := { operation, name, ns, reason := e.describe, status := e.status }
  if e.status = some 403 then .accessDenied f else .persistence f

theorem failure_eq (operation name ns : String) (e : Raised) :
    ∃ es, failure operation name ns e = Work.told (.ok (reported operation name ns e, es)) := by
  cases e with
  | api status reason => exact ⟨_, rfl⟩
  | other kind message => exact ⟨_, rfl⟩

/-! ### Fetching -/

/-- What a read gives: an object that is not there is no fault. -/
def readObject (g : Gateway) : Except Raised (Option ConfigMap) → Except Trouble (Option ConfigMap)
  | .ok m => .ok m
  | .error (.api (some 404) _) => .ok none
  | .error e => .error (.store (reported "read" g.config.name g.config.ns e))

theorem refuse_failure (α : Type) (operation name ns : String) (e : Raised) (σ : Session) :
    ∃ σ', (failure operation name ns e >>= Work.refuse : Work α) σ =
      .error (.store (reported operation name ns e)) σ' ∧ σ.Alike σ' := by
  obtain ⟨es, hfailure⟩ := failure_eq operation name ns e
  rw [hfailure]
  exact ⟨σ.logged es, rfl, σ.alike_logged es⟩

theorem fetchObject_asked (g : Gateway) (σ : Session) :
    ∃ answer attributes σ', σ.Asked (.read g.config.ns g.config.name) answer σ' ∧
      g.fetchObject σ = Work.result ((g.readObject answer).map (·, attributes)) σ' := by
  obtain ⟨answer, σ₁, hrequest, hasked⟩ :=
    Work.request_asked (.read g.config.ns g.config.name) σ
  refine ⟨answer, ?_⟩
  rw [fetchObject, Work.bind_of_ok hrequest]
  cases answer with
  | ok m => exact ⟨_, σ₁, hasked, rfl⟩
  | error e =>
    obtain ⟨σ₂, hrefuse, halike⟩ := refuse_failure (Option ConfigMap × List (String × Json))
      "read" g.config.name g.config.ns e σ₁
    unfold readObject
    split
    · next h => cases h
    · next h =>
      obtain rfl := Except.error.inj h
      exact ⟨_, _, hasked.alike (σ₁.alike_logged _), rfl⟩
    · next e' hne h =>
      obtain rfl := Except.error.inj h
      refine ⟨[], σ₂, hasked.alike halike, Eq.trans (congrFun ?_ σ₁) hrefuse⟩
      split
      · next h => cases h
      · next h => exact absurd (Except.error.inj h) (hne _)
      · next h =>
        obtain rfl := Except.error.inj h
        rfl

/-- What a fetch gives, by the answer to its one request. -/
def fetched (g : Gateway) (answer : Except Raised (Option ConfigMap)) :
    Except Trouble Resource := do
  match ← g.readObject answer with
  | none => pure g.blank
  | some m => Resource.ofConfigMap m

theorem ensureStarted_of_api (hapi : g.api = true) : g.ensureStarted = pure () := by
  simp [ensureStarted, hapi]

theorem ensureStarted_of_not_api (hapi : g.api = false) :
    g.ensureStarted = Work.refuse (g.notConnected notStarted) := by
  simp [ensureStarted, hapi]

theorem fetch_asked (hapi : g.api = true) (σ : Session) :
    ∃ answer σ', σ.Asked (.read g.config.ns g.config.name) answer σ' ∧
      g.fetch σ = Work.result (g.fetched answer) σ' := by
  obtain ⟨answer, attributes, σ₁, hasked, hobject⟩ := fetchObject_asked g σ
  obtain ⟨σ₂, hspan, halike⟩ := Work.spanned_of_result "fetch"
    (Span.start "fetch" (some g.config.name) (some g.config.ns) none []) hobject
  refine ⟨answer, ?_⟩
  rw [fetch, ensureStarted_of_api hapi, Work.pure_bind]
  unfold fetched
  cases hread : g.readObject answer with
  | error t =>
    rw [hread] at hspan
    exact ⟨σ₂, hasked.alike halike, Work.bind_of_error hspan⟩
  | ok m =>
    rw [hread] at hspan
    rw [Work.bind_of_ok hspan, Except.bind_ok]
    cases m with
    | none => exact ⟨σ₂, hasked.alike halike, rfl⟩
    | some m =>
      dsimp only
      cases Resource.ofConfigMap m with
      | error t => exact ⟨σ₂, hasked.alike halike, rfl⟩
      | ok r => exact ⟨_, hasked.alike (halike.trans (σ₂.alike_logged _)), rfl⟩

/-! ### Saving -/

def saveRequest (r : Resource) : Request :=
  if r.exists? then .replace r.ns r.name r.toConfigMap else .create r.ns r.toConfigMap

def saveOperation (r : Resource) : String := if r.exists? then "replace" else "create"

/-- What a write gives. -/
def writtenObject (r : Resource) :
    Except Raised (Option ConfigMap) → Except Trouble (Option ConfigMap)
  | .ok m => .ok m
  | .error e => .error (.store (reported (saveOperation r) r.name r.ns e))

/-- What a save gives, by the answer to its one request. -/
def saved (r : Resource) (answer : Except Raised (Option ConfigMap)) : Except Trouble Resource := do
  Resource.ofConfigMap ((← writtenObject r answer).getD r.toConfigMap)

theorem saveObject_asked (r : Resource) (σ : Session) :
    ∃ answer σ', σ.Asked (saveRequest r) answer σ' ∧
      saveObject r σ = Work.result ((writtenObject r answer).map (·, [])) σ' := by
  obtain ⟨answer, σ₁, hrequest, hasked⟩ := Work.request_asked (saveRequest r) σ
  refine ⟨answer, ?_⟩
  have hbind : saveObject r σ = (match answer with
      | .ok m => pure (m, [])
      | .error e => failure (saveOperation r) r.name r.ns e >>= Work.refuse : Work _) σ₁ :=
    Work.bind_of_ok hrequest
  cases answer with
  | ok m => exact ⟨σ₁, hasked, hbind⟩
  | error e =>
    obtain ⟨σ₂, hrefuse, halike⟩ := refuse_failure (Option ConfigMap × List (String × Json))
      (saveOperation r) r.name r.ns e σ₁
    exact ⟨σ₂, hasked.alike halike, hbind.trans hrefuse⟩

theorem save_asked (hapi : g.api = true) (r : Resource) (σ : Session) :
    ∃ answer σ', σ.Asked (saveRequest r) answer σ' ∧
      g.save r σ = Work.result (saved r answer) σ' := by
  obtain ⟨answer, σ₁, hasked, hobject⟩ := saveObject_asked r σ
  obtain ⟨σ₂, hspan, halike⟩ := Work.spanned_of_result "save" (Span.start "save" (some r.name)
    (some r.ns) none [("authmap.action", .str (Text.ofString (saveOperation r)))]) hobject
  refine ⟨answer, ?_⟩
  rw [save, ensureStarted_of_api hapi, Work.pure_bind]
  dsimp only [saveOperation] at hspan
  unfold saved
  cases hwritten : writtenObject r answer with
  | error t =>
    rw [hwritten] at hspan
    exact ⟨σ₂, hasked.alike halike, Work.bind_of_error hspan⟩
  | ok m =>
    rw [hwritten] at hspan
    rw [Work.bind_of_ok hspan, Except.bind_ok]
    cases Resource.ofConfigMap (m.getD r.toConfigMap) with
    | error t => exact ⟨σ₂, hasked.alike halike, rfl⟩
    | ok r' => exact ⟨_, hasked.alike (halike.trans (σ₂.alike_logged _)), rfl⟩

/-! ### When every request reaches the cluster -/

/-- What a cluster has for a fetch: an object that is not there is read as an empty one. -/
def reads (g : Gateway) (c : Cluster) : Except Trouble Resource :=
  match c.object? g.config.ns g.config.name with
  | none => .ok g.blank
  | some m => Resource.ofConfigMap m

theorem fetch_reads (hapi : g.api = true) (hf : σ.failures = []) :
    ∃ σ', g.fetch σ = Work.result (g.reads σ.cluster) σ' ∧ σ.GoesOn σ.cluster σ' := by
  obtain ⟨answer, σ', hasked, hfetch⟩ := fetch_asked hapi σ
  obtain ⟨rfl, hσ⟩ := hasked.goesOn hf rfl
  have hreads : g.fetched ((σ.cluster.read g.config.ns g.config.name).map some) =
      g.reads σ.cluster := by
    unfold reads Cluster.read
    cases σ.cluster.object? g.config.ns g.config.name <;> rfl
  rw [hreads] at hfetch
  exact ⟨σ', hfetch, hσ⟩

theorem save_of_ok {m : ConfigMap} {c : Cluster} {r' : Resource} (hapi : g.api = true)
    (hf : σ.failures = []) (hserve : Work.serve (saveRequest r) σ.cluster = (.ok (some m), c))
    (hm : Resource.ofConfigMap m = .ok r') :
    ∃ σ', g.save r σ = .ok r' σ' ∧ σ.GoesOn c σ' := by
  obtain ⟨answer, σ', hasked, hsave⟩ := save_asked hapi r σ
  obtain ⟨rfl, hσ⟩ := hasked.goesOn hf hserve
  have hsaved : saved r (.ok (some m)) = .ok r' := hm
  rw [hsaved] at hsave
  exact ⟨σ', hsave, hσ⟩

theorem save_of_conflict {reason : Option String} (hapi : g.api = true) (hf : σ.failures = [])
    (hserve : Work.serve (saveRequest r) σ.cluster =
      (.error (.api (some 409) reason), σ.cluster)) :
    ∃ f σ', g.save r σ = .error (.store (.persistence f)) σ' ∧ f.status = some 409 ∧
      σ.GoesOn σ.cluster σ' := by
  obtain ⟨answer, σ', hasked, hsave⟩ := save_asked hapi r σ
  obtain ⟨rfl, hσ⟩ := hasked.goesOn hf hserve
  exact ⟨_, σ', hsave, rfl, hσ⟩

end Gateway

/-! ### One object -/

namespace Cluster

/-- What the cluster holds under a name: nothing, or an object that has been created, that is read
as a resource, and whose version is none of those to come. -/
def Holds (ns name : String) (c : Cluster) : Option Resource → Prop
  | none => c.object? ns name = none
  | some r => ∃ m, c.object? ns name = some m ∧ Resource.ofConfigMap m = .ok r ∧ r.name = name ∧
      r.ns = ns ∧ r.exists? = true ∧ ∀ n, c.nextVersion ≤ n → r.version ≠ some (toString n)

/-- What is read under a name, whatever its version is. -/
def Offers (ns name : String) (c : Cluster) : Option Resource → Prop
  | none => c.object? ns name = none
  | some r => ∃ m, c.object? ns name = some m ∧ Resource.ofConfigMap m = .ok r ∧ r.name = name ∧
      r.ns = ns ∧ r.exists? = true

theorem Holds.offers {ns name : String} {c : Cluster} {stored : Option Resource}
    (h : c.Holds ns name stored) : c.Offers ns name stored := by
  cases stored with
  | none => exact h
  | some r =>
    obtain ⟨m, hobject, hm, hname, hns, hexists, -⟩ := h
    exact ⟨m, hobject, hm, hname, hns, hexists⟩

/-- A resource is at the version that the cluster holds, or has not been created as nothing is
there. -/
def Current (r : Resource) : Option Resource → Prop
  | none => r.exists? = false
  | some held => r.exists? = true ∧ r.version = held.version

theorem sameVersion_ofOption (a b : Option String) :
    sameVersion (Json.ofOption a) (Json.ofOption b) = decide (a = b) := by
  cases a with
  | none => cases b <;> simp [sameVersion, Json.ofOption]
  | some a =>
    cases b with
    | none => simp [sameVersion, Json.ofOption]
    | some b =>
      have h : Text.ofString a = Text.ofString b ↔ a = b :=
        ⟨Text.ofString_injective, congrArg Text.ofString⟩
      simp [sameVersion, Json.ofOption, h]

theorem sameVersion_toConfigMap {m : ConfigMap} {r held : Resource}
    (hm : Resource.ofConfigMap m = .ok held) (hr : r.exists? = true) :
    sameVersion r.toConfigMap.version m.version = decide (r.version = held.version) := by
  obtain ⟨-, -, -, hversion⟩ := Resource.ofConfigMap_eq_ok hm
  have hbody : r.toConfigMap.version = .ofOption r.version := by simp [Resource.toConfigMap, hr]
  rw [hbody, Json.asStringOrNull_eq_ok hversion, sameVersion_ofOption]

theorem version_injective {m n : Nat} (h : toString m = toString n) : m = n := by
  have hdigits := congrArg (fun s : String => Nat.ofDigitChars 10 s.toList 0) h
  simpa [Nat.toString_eq_repr, Nat.toList_repr, Nat.ofDigitChars_ten_toDigits] using hdigits

/-- The UID that the cluster gives to the next object that is created. -/
def freshUid (c : Cluster) : String := "uid-" ++ toString (c.created + 1)

theorem freshUid_ne (c : Cluster) : c.freshUid ≠ "" := by simp [freshUid]

def written (c : Cluster) (r : Resource) (uid : String) : Resource :=
  { r with uid, version := some (toString c.nextVersion) }

theorem holds_write {ns name u : String} {c : Cluster} {r : Resource} {uid : Json}
    (hname : r.name = name) (hns : r.ns = ns) (hu : u ≠ "")
    (huid : (uid.orEmpty (.str "")).asString ["uid"] = .ok u) :
    Resource.ofConfigMap (c.write ns name uid r.toConfigMap).1 = .ok (c.written r u) ∧
      (c.write ns name uid r.toConfigMap).2.Holds ns name (some (c.written r u)) := by
  have hread : Resource.ofConfigMap (c.write ns name uid r.toConfigMap).1 =
      .ok (c.written r u) := by
    subst hns
    exact Resource.ofConfigMap_written r huid (some _)
  refine ⟨hread, _, object?_write uid _, hread, hname, hns, ?_, ?_⟩
  -- the object has been created, and its version is used up
  · simpa [Resource.exists?, written] using hu
  · intro n hn hversion
    have hrepr : c.nextVersion = n := version_injective (Option.some.inj hversion)
    have hnext : (c.write ns name uid r.toConfigMap).2.nextVersion = c.nextVersion + 1 := rfl
    omega

end Cluster

namespace Gateway

variable {g : Gateway} {σ : Session} {r : Resource} {ns name : String}

theorem fetch_of_offers {held : Option Resource} (hapi : g.api = true) (hf : σ.failures = [])
    (hns : g.config.ns = ns) (hname : g.config.name = name)
    (hc : σ.cluster.Offers ns name held) :
    ∃ σ', g.fetch σ = .ok (held.getD g.blank) σ' ∧ σ.GoesOn σ.cluster σ' := by
  subst hns hname
  obtain ⟨σ', hfetch, hσ⟩ := fetch_reads hapi hf
  have hreads : g.reads σ.cluster = .ok (held.getD g.blank) := by
    unfold reads
    cases held with
    | none =>
      have hobject : σ.cluster.object? g.config.ns g.config.name = none := hc
      rw [hobject]
      rfl
    | some r =>
      obtain ⟨m, hobject, hm, -⟩ := hc
      rw [hobject]
      exact hm
  rw [hreads] at hfetch
  exact ⟨σ', hfetch, hσ⟩

theorem saveRequest_create (hr : r.exists? = false) (c : Cluster) :
    Work.serve (saveRequest r) c =
      ((c.create r.ns r.name r.toConfigMap).1.map some,
        (c.create r.ns r.name r.toConfigMap).2) := by
  have hname : r.toConfigMap.name.str?.getD "" = r.name := by
    simp [Resource.toConfigMap, Json.str?, Text.string?_ofString]
  simp only [saveRequest, hr, Bool.false_eq_true, if_false, Work.serve, hname]

theorem saveRequest_replace (hr : r.exists? = true) (c : Cluster) :
    Work.serve (saveRequest r) c =
      ((c.replace r.ns r.name r.toConfigMap).1.map some,
        (c.replace r.ns r.name r.toConfigMap).2) := by
  simp only [saveRequest, hr, if_true, Work.serve]

theorem serve_create {c : Cluster} (hr : r.exists? = false) (hc : c.Offers r.ns r.name none) :
    ∃ m c' u, Work.serve (saveRequest r) c = (.ok (some m), c') ∧
      Resource.ofConfigMap m = .ok (c.written r u) ∧
      c'.Holds r.ns r.name (some (c.written r u)) ∧ c'.nextVersion = c.nextVersion + 1 := by
  have hobject : c.object? r.ns r.name = none := hc
  let c₁ : Cluster := { c with created := c.created + 1 }
  have huid : ((Json.str c.freshUid).orEmpty (.str "")).asString ["uid"] = .ok c.freshUid := by
    rw [Json.orEmpty_str, Json.asString_str]
  obtain ⟨hm, hholds⟩ := Cluster.holds_write (c := c₁) (r := r) rfl rfl c.freshUid_ne huid
  refine ⟨_, _, c.freshUid, ?_, hm, hholds, rfl⟩
  rw [saveRequest_create hr, Cluster.create, hobject]
  dsimp only
  rw [← Text.ofString_append]
  rfl

theorem serve_replace {c : Cluster} {held : Resource} (hr : r.exists? = true)
    (hversion : r.version = held.version) (hc : c.Offers r.ns r.name (some held)) :
    ∃ m c' u, Work.serve (saveRequest r) c = (.ok (some m), c') ∧
      Resource.ofConfigMap m = .ok (c.written r u) ∧
      c'.Holds r.ns r.name (some (c.written r u)) ∧ c'.nextVersion = c.nextVersion + 1 := by
  obtain ⟨m, hobject, hheld, -, -, hexists⟩ := hc
  obtain ⟨-, -, huid, -⟩ := Resource.ofConfigMap_eq_ok hheld
  have hu : held.uid ≠ "" := by simpa [Resource.exists?] using hexists
  have hsame : Cluster.sameVersion r.toConfigMap.version m.version = true := by
    rw [Cluster.sameVersion_toConfigMap hheld hr, hversion]
    exact decide_eq_true rfl
  obtain ⟨hm, hholds⟩ := Cluster.holds_write (c := c) (r := r) rfl rfl hu huid
  refine ⟨_, _, held.uid, ?_, hm, hholds, rfl⟩
  rw [saveRequest_replace hr, Cluster.replace, hobject]
  simp only [hsame, if_true]
  rfl

/-- A request at any other version meets a conflict. -/
theorem serve_stale {c : Cluster} {held : Resource} (hc : c.Offers r.ns r.name (some held))
    (hstale : ¬ Cluster.Current r (some held)) :
    ∃ reason, Work.serve (saveRequest r) c = (.error (.api (some 409) reason), c) := by
  obtain ⟨m, hobject, hheld, -⟩ := hc
  cases hr : r.exists? with
  | false =>
    rw [saveRequest_create hr, Cluster.create, hobject]
    exact ⟨_, rfl⟩
  | true =>
    have hversion : r.version ≠ held.version := fun h => hstale ⟨hr, h⟩
    have hsame : Cluster.sameVersion r.toConfigMap.version m.version = false := by
      rw [Cluster.sameVersion_toConfigMap hheld hr]
      exact decide_eq_false hversion
    rw [saveRequest_replace hr, Cluster.replace, hobject]
    simp only [hsame, Bool.false_eq_true, if_false]
    exact ⟨_, rfl⟩

theorem save_of_current {held : Option Resource} (hapi : g.api = true) (hf : σ.failures = [])
    (hc : σ.cluster.Offers r.ns r.name held) (hcurrent : Cluster.Current r held) :
    ∃ u σ', g.save r σ = .ok (σ.cluster.written r u) σ' ∧
      σ'.cluster.Holds r.ns r.name (some (σ.cluster.written r u)) ∧
      σ'.cluster.nextVersion = σ.cluster.nextVersion + 1 ∧ σ'.failures = [] := by
  -- the object is created if there is none, and replaced otherwise
  obtain ⟨m, c, u, hserve, hm, hholds, hnext⟩ : ∃ m c u,
      Work.serve (saveRequest r) σ.cluster = (.ok (some m), c) ∧
        Resource.ofConfigMap m = .ok (σ.cluster.written r u) ∧
        c.Holds r.ns r.name (some (σ.cluster.written r u)) ∧
        c.nextVersion = σ.cluster.nextVersion + 1 := by
    cases held with
    | none => exact serve_create hcurrent hc
    | some held => exact serve_replace hcurrent.1 hcurrent.2 hc
  obtain ⟨σ', hsave, rfl, hfailures⟩ := save_of_ok hapi hf hserve hm
  exact ⟨u, σ', hsave, hholds, hnext, hfailures.trans hf⟩

theorem save_of_stale {held : Resource} (hapi : g.api = true) (hf : σ.failures = [])
    (hc : σ.cluster.Offers r.ns r.name (some held)) (hstale : ¬ Cluster.Current r (some held)) :
    ∃ f σ', g.save r σ = .error (.store (.persistence f)) σ' ∧ f.status = some 409 ∧
      σ.GoesOn σ.cluster σ' := by
  obtain ⟨reason, hserve⟩ := serve_stale hc hstale
  exact save_of_conflict hapi hf hserve

end Gateway

end AuthMap
