import AuthMap.Session

/-!
The way to the ConfigMap of a configuration. An object that is not there is read as an empty one
without a UID, and a save creates exactly such an object. No request is made twice.
-/

namespace AuthMap

structure Gateway where
  config : Config := {}
  /-- Whether the library of requests is at hand. -/
  client : Bool := false
  /-- Whether requests can be made. -/
  api : Bool := false
  deriving DecidableEq, Repr, Inhabited

/-- A short account of an error: reason and status, or the reason alone, or else the message, or
the name of its kind. -/
def describe (status reason : Option String) (message kind : String) : String :=
  match status, reason with
  | some status, some reason => reason ++ " (HTTP " ++ status ++ ")"
  | none, some reason => reason
  | _, none => if message = "" then kind else message

def Raised.describe (e : Raised) : String :=
  AuthMap.describe e.statusText e.reason e.message e.kind

def StoreError.describe (e : StoreError) : String :=
  AuthMap.describe (e.status.map toString) e.reason e.message e.kind

namespace Gateway

/-! ### Connecting -/

inductive LoadFault where
  | unconfigured (text : String)
  | raised (e : Raised)
  deriving DecidableEq, Repr

def LoadFault.message : LoadFault → String
  | .unconfigured text => text
  | .raised e => e.message

structure Sources where
  incluster : Option LoadFault := none
  kubeconfig : Option LoadFault := none
  api : Option LoadFault := none

inductive Load where
  | incluster
  /-- A file and a context; without a file the one at its usual place. -/
  | kubeconfig (file : Option Text) (context : Option Text)
  | api
  deriving DecidableEq, Repr

structure Startup where
  result : Except StoreError Unit
  gateway : Gateway
  loads : List Load
  events : List Event

def notConnected (g : Gateway) (reason : String) : StoreError :=
  .persistence { operation := "connect", name := g.config.name, ns := g.config.ns, reason }

def failed (g : Gateway) (loads : List Load) (events : List Event) (f : LoadFault) : Startup where
  result := .error (g.notConnected f.message)
  gateway := g
  loads := loads
  events := events ++ [⟨.error, "kubernetes_client_init_failed", []⟩]

def connected (g : Gateway) (s : Sources) (loads : List Load) (event : Event) : Startup :=
  let g := { g with client := true }
  let loads := loads ++ [.api]
  match s.api with
  | some f => g.failed loads [event] f
  | none => ⟨.ok (), { g with api := true }, loads, [event]⟩

def startup (g : Gateway) (s : Sources) : Startup :=
  let context := g.config.context
  let shown : List (String × Json) := [("context", .ofText? context)]
  match g.config.kubeconfig with
  | some file =>
    let load := Load.kubeconfig (some file) context
    match s.kubeconfig with
    | some f => g.failed [load] [] f
    | none =>
      g.connected s [load] ⟨.info, "kubeconfig_loaded", ("kubeconfig_path", .str file) :: shown⟩
  | none =>
    match s.incluster with
    | none => g.connected s [.incluster] ⟨.info, "incluster_config_loaded", []⟩
    | some (.unconfigured _) =>
      -- there is no cluster around, so the file at the usual place is tried
      let loads := [.incluster, .kubeconfig none context]
      match s.kubeconfig with
      | some f => g.failed loads [] f
      | none => g.connected s loads ⟨.info, "default_kubeconfig_loaded", shown⟩
    | some f => g.failed [.incluster] [] f

def shutdown (g : Gateway) : Gateway := { g with client := false, api := false }

def notStarted : String := "Gateway not initialized - call startup() first"

def ensureStarted (g : Gateway) : Work Unit :=
  if g.api then pure () else Work.refuse (g.notConnected notStarted)

/-! ### Failures -/

def failure (operation name ns : String) (e : Raised) : Work StoreError := do
  let place : List (String × Json) :=
    [("operation", .str operation), ("name", .str name), ("namespace", .str ns)]
  let f : Failure := { operation, name, ns, reason := e.describe, status := e.status }
  match e with
  | .api status _ =>
    Work.emit .error "auth_configmap_api_error"
      (place ++ [("status", status.elim .null .int), ("reason", .str e.describe)])
    pure (if status = some 403 then .accessDenied f else .persistence f)
  | .other kind _ _ _ =>
    Work.emit .error "auth_configmap_transport_error" (place ++ [("error_type", .str kind)])
    pure (.persistence f)

/-! ### Requests -/

inductive Health where
  | healthy
  | unhealthy
  deriving DecidableEq, Repr

def Health.name : Health → String
  | .healthy => "healthy"
  | .unhealthy => "unhealthy"

def health (g : Gateway) : Work (Health × String) := do
  if g.api then
    match ← Work.request (.list g.config.ns 1) with
    | .error e => pure (.unhealthy, "K8s API check failed: " ++ e.describe)
    | .ok _ => pure (.healthy, "Connected to K8s API, namespace: " ++ g.config.ns)
  else pure (.unhealthy, notStarted)

def blank (g : Gateway) : Resource :=
  { name := g.config.name, ns := g.config.ns, labels := g.config.labels }

def found (b : Bool) : List (String × Json) := [("authmap.found", .bool b)]

def fetchObject (g : Gateway) : Work (Option ConfigMap × List (String × Json)) := do
  let name := g.config.name
  let ns := g.config.ns
  match ← Work.request (.read ns name) with
  | .ok m => pure (m, found true)
  | .error (.api (some 404) _) =>
    Work.emit .debug "auth_configmap_absent" [("name", .str name), ("namespace", .str ns)]
    pure (none, found false)
  | .error e => Work.refuse (← failure "read" name ns e)

def fetch (g : Gateway) : Work Resource := do
  g.ensureStarted
  let name := g.config.name
  let ns := g.config.ns
  match ← Work.spanned "fetch" (Span.start "fetch" (some name) (some ns) none []) g.fetchObject with
  | none => pure g.blank
  | some m =>
    let r ← Work.ofExcept (Resource.ofConfigMap m)
    Work.emit .debug "auth_configmap_fetched"
      [("name", .str name), ("namespace", .str ns), ("uid", .str r.uid),
        ("resource_version", .ofOption r.version), ("data", .ofTexts r.data)]
    pure r

def saveObject (r : Resource) : Work (Option ConfigMap × List (String × Json)) := do
  -- an object without a UID has not been created
  let operation := if r.exists? then "replace" else "create"
  let body := r.toConfigMap
  let req := if r.exists? then Request.replace r.ns r.name body else .create r.ns body
  match ← Work.request req with
  | .ok m => pure (m, [])
  | .error e => Work.refuse (← failure operation r.name r.ns e)

def save (g : Gateway) (r : Resource) : Work Resource := do
  g.ensureStarted
  let operation := if r.exists? then "replace" else "create"
  let attributes :=
    Span.start "save" (some r.name) (some r.ns) none [("authmap.action", .str operation)]
  let m ← Work.spanned "save" attributes (saveObject r)
  let saved ← Work.ofExcept (Resource.ofConfigMap (m.getD r.toConfigMap))
  Work.emit .info (if r.exists? then "auth_configmap_updated" else "auth_configmap_created")
    [("name", .str saved.name), ("namespace", .str saved.ns), ("uid", .str saved.uid),
      ("resource_version", .ofOption saved.version)]
  pure saved

end Gateway

end AuthMap
