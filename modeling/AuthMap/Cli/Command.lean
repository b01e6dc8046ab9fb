import AuthMap.Cli.Options
import AuthMap.Cli.Report
import AuthMap.Json.Printer
import AuthMap.Store

/-! The commands: how they are read from a command line, and what they do. -/

namespace AuthMap.Cli

inductive Format where
  | json
  | yaml
  deriving DecidableEq, Repr

inductive Command where
  | get (arn : Option Text) (format : Format)
  | create (arn username : Text) (groups : List Text)
  | delete (arn : Text) (all : Bool)
  | addAccount (account : Text)
  | removeAccount (account : Text)
  deriving DecidableEq, Repr

inductive Asked (α : Type) where
  | usage
  | help
  | version
  | run (a : α)
  deriving DecidableEq, Repr

def Given.asked (g : Given) (read : Given → Option α) : Asked α :=
  -- help and version come before all else that is asked for
  match g.options.find? fun o => o.1 = "help" || o.1 = "version" with
  | some ("help", _) => .help
  | some _ => .version
  | none =>
    match read g with
    | some a => .run a
    | none => .usage

def ask (specs : List OptionSpec) (mixed : Bool) (args : List Text)
    (read : Given → Option α) : Asked α :=
  match parse specs mixed args with
  | some g => g.asked read
  | none => .usage

namespace Command

def helpOption : OptionSpec := { key := "help", names := ["-h", "--help"], takesValue := false }

def arnOption : OptionSpec := { key := "arn", names := ["--arn"] }

def format? (g : Given) : Option Format :=
  match choice? ["json", "yaml"] ((g.value? "output").getD "json") with
  | some "json" => some .json
  | some _ => some .yaml
  | none => none

def readGet (g : Given) : Option Command :=
  if g.rest.isEmpty then (format? g).map fun f => .get (g.value? "arn") f else none

def readCreate (g : Given) : Option Command :=
  if g.rest.isEmpty then
    (g.value? "arn").map fun arn => .create arn ((g.value? "username").getD []) (g.values "group")
  else none

def readDelete (g : Given) : Option Command :=
  if g.rest.isEmpty then (g.value? "arn").map fun arn => .delete arn (g.has "all") else none

def readAccount (make : Text → Command) (g : Given) : Option Command :=
  match g.rest with
  | [account] => some (make account)
  | _ => none

def lookup? (name : Text) : Option (List OptionSpec × (Given → Option Command)) :=
  match name.string? with
  | some "get" =>
    some ([helpOption, arnOption, { key := "output", names := ["--output", "-o"] }], readGet)
  | some "create" =>
    some ([helpOption, arnOption, { key := "username", names := ["--username"] },
      { key := "group", names := ["--group"] }], readCreate)
  | some "delete" =>
    some ([helpOption, arnOption, { key := "all", names := ["--all"], takesValue := false }],
      readDelete)
  | some "add-account" => some ([helpOption], readAccount .addAccount)
  | some "remove-account" => some ([helpOption], readAccount .removeAccount)
  | _ => none

/-! ### What commands do -/

def listing (format : Format) (rs : List Identity) : String :=
  match format with
  | .json => (Json.arr (rs.map Identity.toJson)).pretty ++ "\n"
  | .yaml => Yaml.printRecords (rs.map (Identity.written "arn"))

/-- The records to list: all, or those of a name that is given and not empty. -/
def selected (arn : Option Text) (r : Resource) : Except Trouble (List Identity) :=
  match arn with
  | none | some [] => r.identities
  | some arn => r.find (.text arn)

/-- Carries a command out, and gives what it prints. -/
def execute (g : Gateway) : Command → Work Text
  | .get arn format => do
    let r ← g.fetch
    pure (listing format (← Work.ofExcept (selected arn r)))
  | .create arn username groups => do
    let (_, r) ← (← g.fetch).addIdentity (.text arn) username groups
    let _ ← g.save r
    pure ("Added identity mapping for " ++ arn ++ "\n")
  | .delete arn all => do
    let (n, r) ← (← g.fetch).removeIdentity (.text arn) all
    let _ ← g.save r
    pure ("Removed " ++ toString n ++ " identity mapping(s) for " ++ arn ++ "\n")
  | .addAccount account => do
    let _ ← g.save (← (← g.fetch).addAccount account)
    pure ("Added account " ++ account ++ "\n")
  | .removeAccount account => do
    let _ ← g.save (← (← g.fetch).removeAccount account)
    pure ("Removed account " ++ account ++ "\n")

end Command

end AuthMap.Cli
