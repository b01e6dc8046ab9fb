import AuthMap.Path
import AuthMap.Text.Blank
import AuthMap.Trouble

/-! Where the ConfigMap is and how its cluster is reached. -/

namespace AuthMap

def objectName : String := "aws-auth"

def objectNamespace : String := "kube-system"

structure Config where
  name : String := objectName
  ns : String := objectNamespace
  /-- The file to connect with; without one the cluster is looked for from inside. -/
  kubeconfig : Option Text := none
  context : Option Text := none
  labels : List (String × String) := []
  deriving DecidableEq, Repr, Inhabited

namespace Config

def isEdge (c : Char) : Bool := c.isLower || c.isDigit

/-- A name has letters or digits at its ends, and inside it may have marks too. -/
def isName (isInner : Char → Bool) (cs : List Char) : Bool :=
  cs.head?.any isEdge && cs.getLast?.any isEdge && cs.all fun c => isEdge c || isInner c

def isObjectName : List Char → Bool := isName fun c => c = '-' || c = '.'

def isNamespace : List Char → Bool := isName fun c => c = '-'

def objectNamePattern : String := "^[a-z0-9]([-a-z0-9.]*[a-z0-9])?$"

def namespacePattern : String := "^[a-z0-9][a-z0-9-]*[a-z0-9]$|^[a-z0-9]$"

def nameText (most : Nat) (form : List Char → Bool) (pattern : String) (loc : List String)
    (j : Json) : Checked String :=
  (j.asString loc).andThen fun s =>
    if s.isEmpty then .fail loc .tooShort
    else if most < s.length then .fail loc (.tooLong most)
    else if form s.toList then .ok s
    else .fail loc (.mismatch pattern)

/-- The first label that is too long: a key beyond 253 characters, or a value beyond 63. -/
def labelFault : List (String × String) → Option String
  | [] => none
  | (k, v) :: labels =>
    if 253 < k.length then some ("Label key too long: " ++ k)
    else if 63 < v.length then some ("Label value too long for key " ++ k ++ ": " ++ v)
    else labelFault labels

def labelsOf (loc : List String) (j : Json) : Checked (List (String × String)) :=
  (j.asDictionary loc).andThen fun labels =>
    match labelFault labels with
    | some fault => .fail loc (.refused fault)
    | none => .ok labels

def expand (homes : Homes) (t : Text) : Except HomeFault Text :=
  ((Path.ofText t).expand homes).map Path.toText

/-- The file to connect with; a home that is not known is no matter of this field. -/
def kubeconfigOf (homes : Homes) (loc : List String) (j : Json) : Checked (Option Text) :=
  (j.asTextOrNull loc).andThen fun t =>
    match t.map (expand homes) with
    | none | some (.error .unknown) => .ok none
    | some (.error (.refused text)) => .fail loc (.refused text)
    | some (.ok path) => .ok (some path)

def fieldNames : List String := ["name", "namespace", "kubeconfig_path", "context", "labels"]

def checkFields (homes : Homes) (fields : List (String × Json)) : Checked Config :=
  let make name ns kubeconfig context labels (_ : Unit) : Config :=
    { name, ns, kubeconfig, context, labels }
  make <$> Json.fieldOr objectName (nameText 253 isObjectName objectNamePattern) "name" fields
    <*> Json.fieldOr objectNamespace (nameText 63 isNamespace namespacePattern) "namespace" fields
    <*> Json.fieldOr none (kubeconfigOf homes) "kubeconfig_path" fields
    <*> Json.fieldOr none Json.asTextOrNull "context" fields
    <*> Json.fieldOr [] labelsOf "labels" fields
    <*> Json.onlyFields fieldNames fields

def isHomeless (homes : Homes) (fields : List (String × Json)) : Bool :=
  match ((Json.field? "kubeconfig_path" fields).bind Json.text?).map (expand homes) with
  | some (.error .unknown) => true
  | _ => false

/-- A configuration from its fields. An unknown home is reported before all else. -/
def ofFields (homes : Homes) (fields : List (String × Json)) : Except Trouble Config :=
  if isHomeless homes fields then .error .homeless
  else Checked.lift (checkFields homes fields)

/-! ### The environment -/

/-- The fields that variables of the environment give: blank ones do not count, and of a list
of files it is the first that does. -/
def envFields (env : List (String × Text)) : List (String × Json) :=
  let value (name : String) : Text :=
    Text.stripped ((env.find? fun e => e.1 = name).map (·.2) |>.getD [])
  let files := Text.splitOn (.char ':') (value "KUBECONFIG")
  let fields : List (String × Text) :=
    [("name", value "AUTHMAP_NAME"), ("namespace", value "AUTHMAP_NAMESPACE"),
      ("context", value "AUTHMAP_CONTEXT"), ("kubeconfig_path", files.head?.getD [])]
  (fields.filter fun f => !f.2.isEmpty).map fun f => (f.1, .str f.2)

def ofEnv (homes : Homes) (env : List (String × Text)) : Except Trouble Config :=
  ofFields homes (envFields env)

def fields (c : Config) : List (String × Json) :=
  [("name", .str c.name), ("namespace", .str c.ns), ("kubeconfig_path", .ofText? c.kubeconfig),
    ("context", .ofText? c.context), ("labels", .ofTexts c.labels)]

end Config

end AuthMap
