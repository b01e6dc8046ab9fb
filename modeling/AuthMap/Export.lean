import AuthMap.Json.Basic
import AuthMap.Text.Quoted

/-! What callers reach by name: the components that are offered, the modules that hold them, and
what the library says of itself. -/

namespace AuthMap

def libraryName : String := "eks_authmap"

def libraryVersion : String := "0.1.0"

/-- The components on offer, each with the module that holds it. -/
def components : List (String × String) :=
  [("AuthConfigMap", "store"), ("AuthMapConfig", "config"), ("ConfigMapGateway", "gateway"),
    ("MapIdentity", "identity"), ("MappingSnapshot", "snapshot"), ("new_identity", "identity"),
    ("parse_arn", "arn")]

def moduleNames : List String :=
  ["arn", "cli", "codec", "config", "errors", "gateway", "identity", "logging", "nodegroup",
    "resource", "snapshot", "store", "tracing"]

def moduleName (name : String) : String := libraryName ++ "." ++ name

def commonNames : List String :=
  ["__delattr__", "__dir__", "__eq__", "__format__", "__ge__", "__getattr__",
    "__getattribute__", "__getstate__", "__gt__", "__hash__", "__init__", "__init_subclass__",
    "__le__", "__lt__", "__ne__", "__new__", "__reduce__", "__reduce_ex__", "__repr__",
    "__setattr__", "__sizeof__", "__str__", "__subclasshook__", "Any"]

def particulars : List (String × Json) :=
  [("__version__", .str libraryVersion), ("__all__", Json.strings (components.map (·.1))),
    ("__name__", .str libraryName), ("__package__", .str libraryName),
    ("__class__", .str "module"),
    ("_EXPORTS", .ofTexts (components.map fun c => (c.1, moduleName c.2)))]

/-- What stands under a name: a component or a module goes by its own name. A name with nothing
under it has a message. -/
def exported (name : String) : Except String Json :=
  if components.any (·.1 = name) || commonNames.contains name then .ok (.str name)
  else if moduleNames.contains name then .ok (.str (moduleName name))
  else match particulars.find? (·.1 = name) with
    | some (_, j) => .ok j
    | none =>
      .error ("module " ++ Text.quoted libraryName ++ " has no attribute " ++ Text.quoted name)

end AuthMap
