import AuthMap.Resource

/-!
A cluster as far as ConfigMaps go. A write over an object is accepted only at the version it was
read at, every accepted write gives the object a version never used before, and its UID stays.
-/

namespace AuthMap

structure Cluster where
  objects : List ((String × String) × ConfigMap) := []
  created : Nat := 0
  nextVersion : Nat := 1000
  deriving Inhabited, Repr

namespace Cluster

def notFound : Raised := .api (some 404) (some "Not Found")

def alreadyExists : Raised := .api (some 409) (some "AlreadyExists")

def conflict : Raised := .api (some 409) (some "Conflict")

def object? (ns name : String) (c : Cluster) : Option ConfigMap :=
  (c.objects.find? fun o => o.1 = (ns, name)).map (·.2)

/-- Puts an object in the place of one of the same namespace and name, or at the end. -/
def put (key : String × String) (m : ConfigMap) :
    List ((String × String) × ConfigMap) → List ((String × String) × ConfigMap)
  | [] => [(key, m)]
  | o :: os => if o.1 = key then (key, m) :: os else o :: put key m os

def orNull (j : Json) : Json := j.orEmpty .null

def normalized (m : ConfigMap) : ConfigMap :=
  { m with
    labels := orNull m.labels, annotations := orNull m.annotations,
    finalizers := orNull m.finalizers, owners := orNull m.owners }

def seed (ns name : String) (m : ConfigMap) (c : Cluster) : Cluster :=
  { c with objects := put (ns, name) (normalized m) c.objects }

def delete (ns name : String) (c : Cluster) : Cluster :=
  { c with objects := c.objects.filter fun o => o.1 ≠ (ns, name) }

def read (ns name : String) (c : Cluster) : Except Raised ConfigMap :=
  match c.object? ns name with
  | some m => .ok m
  | none => .error notFound

def write (ns name : String) (uid : Json) (body : ConfigMap) (c : Cluster) :
    ConfigMap × Cluster :=
  let m := { normalized body with ns := .str ns, uid, version := .str (toString c.nextVersion) }
  (m, { c with objects := put (ns, name) m c.objects, nextVersion := c.nextVersion + 1 })

def create (ns name : String) (body : ConfigMap) (c : Cluster) :
    Except Raised ConfigMap × Cluster :=
  match c.object? ns name with
  | some _ => (.error alreadyExists, c)
  | none =>
    let n := c.created + 1
    let (m, c) := { c with created := n }.write ns name (.str ("uid-" ++ toString n)) body
    (.ok m, c)

def sameVersion : Json → Json → Bool
  | .null, .null => true
  | .str a, .str b => a = b
  | _, _ => false

def replace (ns name : String) (body : ConfigMap) (c : Cluster) :
    Except Raised ConfigMap × Cluster :=
  match c.object? ns name with
  | none => (.error notFound, c)
  | some m =>
    -- the write is accepted only at the version that is there
    if sameVersion body.version m.version then
      let (m, c) := c.write ns name m.uid body
      (.ok m, c)
    else (.error conflict, c)

def listedBefore (a b : (String × String) × ConfigMap) : Bool :=
  a.1.1 < b.1.1 || (a.1.1 = b.1.1 && !(b.1.2 < a.1.2))

def listed (c : Cluster) : List ConfigMap := (c.objects.mergeSort listedBefore).map (·.2)

end Cluster

end AuthMap
