import AuthMap.Config
import AuthMap.Data

/-!
The ConfigMap: as the cluster keeps it, a document whose parts may be of any type, and as it is
held between reading and writing, a record. An object without a UID has not been created yet.
-/

namespace AuthMap

structure ConfigMap where
  name : Json
  ns : Json
  uid : Json := .null
  version : Json := .null
  labels : Json := .null
  annotations : Json := .null
  finalizers : Json := .null
  owners : Json := .null
  data : Json := .null
  deriving Inhabited, Repr

structure Resource where
  name : String := objectName
  ns : String := objectNamespace
  uid : String := ""
  version : Option String := none
  labels : List (String × String) := []
  annotations : List (String × String) := []
  finalizers : List String := []
  owners : List Json := []
  data : Data := []
  deriving Inhabited, Repr

namespace Resource

def exists? (r : Resource) : Bool := r.uid ≠ ""

def withData (updates : Data) (r : Resource) : Resource := { r with data := r.data.update updates }

def fieldNames : List String :=
  ["name", "namespace", "uid", "resource_version", "labels", "annotations", "finalizers",
    "owner_references", "data"]

def ofFields (fields : List (String × Json)) : Checked Resource :=
  let make name ns uid version labels annotations finalizers owners data (_ : Unit) : Resource :=
    { name, ns, uid, version, labels, annotations, finalizers, owners, data }
  make <$> Json.fieldOr objectName Json.asString "name" fields
    <*> Json.fieldOr objectNamespace Json.asString "namespace" fields
    <*> Json.fieldOr "" Json.asString "uid" fields
    <*> Json.fieldOr none Json.asStringOrNull "resource_version" fields
    <*> Json.fieldOr [] Json.asDictionary "labels" fields
    <*> Json.fieldOr [] Json.asDictionary "annotations" fields
    <*> Json.fieldOr [] Json.asStrings "finalizers" fields
    <*> Json.fieldOr [] Json.asList "owner_references" fields
    <*> Json.fieldOr [] Json.asDictionary "data" fields
    <*> Json.onlyFields fieldNames fields

def ofConfigMap (m : ConfigMap) : Except Trouble Resource := do
  let dictionary (j : Json) := ShapeFault.lift (j.orEmpty (.obj [])).pairs
  let sequence (j : Json) := ShapeFault.lift (j.orEmpty (.arr [])).elements
  -- the collections are taken apart before anything is checked
  let labels ← dictionary m.labels
  let annotations ← dictionary m.annotations
  let finalizers ← sequence m.finalizers
  let owners ← sequence m.owners
  let data ← dictionary m.data
  let make name ns uid version labels annotations finalizers data : Resource :=
    { name, ns, uid, version, labels, annotations, finalizers, owners, data }
  Checked.lift
    (make <$> m.name.asString ["name"] <*> m.ns.asString ["namespace"]
      <*> (m.uid.orEmpty (.str "")).asString ["uid"]
      <*> m.version.asStringOrNull ["resource_version"]
      <*> Json.asStringPairs ["labels"] labels <*> Json.asStringPairs ["annotations"] annotations
      <*> (Json.arr finalizers).asStrings ["finalizers"] <*> Json.asStringPairs ["data"] data)

/-- The object to write. Empty collections are left out, and so are UID and version of an
object that has not been created. -/
def toConfigMap (r : Resource) : ConfigMap where
  name := .str r.name
  ns := .str r.ns
  uid := if r.exists? then .str r.uid else .null
  version := if r.exists? then .ofOption r.version else .null
  labels := match r.labels with | [] => .null | ls => .ofTexts ls
  annotations := match r.annotations with | [] => .null | as => .ofTexts as
  finalizers := match r.finalizers with | [] => .null | fs => .strings fs
  owners := match r.owners with | [] => .null | os => .arr os
  data := .ofTexts r.data

end Resource

end AuthMap
