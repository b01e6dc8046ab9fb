import AuthMap.Cluster
import AuthMap.Span

/-!
Work with a cluster, and the record of it: which requests were made, what was logged, and which
spans have ended. What was done before trouble stays done.
-/

namespace AuthMap

inductive Request where
  | read (ns name : String)
  | create (ns : String) (body : ConfigMap)
  | replace (ns name : String) (body : ConfigMap)
  | list (ns : String) (limit : Nat)
  deriving Repr

inductive Method where
  | read
  | create
  | replace
  | list
  deriving DecidableEq, Repr

def Method.name : Method → String
  | .read => "read"
  | .create => "create"
  | .replace => "replace"
  | .list => "list"

def Request.method : Request → Method
  | .read _ _ => .read
  | .create _ _ => .create
  | .replace _ _ _ => .replace
  | .list _ _ => .list

structure Session where
  cluster : Cluster := {}
  /-- Failures to come, in order, by the kind of the request that meets them. -/
  failures : List (Method × Raised) := []
  requests : List Request := []
  events : List Event := []
  spans : List Span := []
  deriving Inhabited

abbrev Work (α : Type) := EStateM Trouble Session α

namespace Work

def refuse (e : StoreError) : Work α := throw (.store e)

def ofStore (r : Except StoreError α) : Work α :=
  match r with
  | .ok a => pure a
  | .error e => refuse e

def ofExcept (r : Except Trouble α) : Work α :=
  match r with
  | .ok a => pure a
  | .error t => throw t

def emit (level : Level) (name : String) (fields : List (String × Json)) : Work Unit :=
  modify fun s => { s with events := s.events ++ [⟨level, name, fields⟩] }

/-- What the cluster does with a request; a list is always given. -/
def serve (r : Request) (c : Cluster) : Except Raised (Option ConfigMap) × Cluster :=
  match r with
  | .read ns name => ((c.read ns name).map some, c)
  | .create ns body =>
    let (answer, c) := c.create ns (body.name.str?.getD "") body
    (answer.map some, c)
  | .replace ns name body =>
    let (answer, c) := c.replace ns name body
    (answer.map some, c)
  | .list _ _ => (.ok none, c)

def request (r : Request) : Work (Except Raised (Option ConfigMap)) :=
  modifyGet fun s =>
    -- the request is recorded whatever comes of it
    let s := { s with requests := s.requests ++ [r] }
    match s.failures.find? fun f => f.1 = r.method with
    | some (_, e) =>
      (.error e, { s with failures := s.failures.eraseP fun f => f.1 = r.method })
    | none =>
      let (answer, cluster) := serve r s.cluster
      (answer, { s with cluster })

/-- Work under a span, which takes the attributes that the work ends with. -/
def spanned (operation : String) (attributes : List (String × Json))
    (work : Work (α × List (String × Json))) : Work α := fun s =>
  match work s with
  | .ok (a, set) s =>
    let span := Span.finish operation (Span.setAttributes attributes set) none
    .ok a { s with spans := s.spans ++ [span] }
  | .error t s =>
    .error t { s with spans := s.spans ++ [Span.finish operation attributes (some t)] }

end Work

end AuthMap
