import AuthMap.Cli.Command
import AuthMap.Export

/-!
From a command line to what is to be done. Options before the command make the configuration,
over the environment; the environment is checked by itself first, and the configuration before
the arguments of the command.
-/

namespace AuthMap.Cli

structure Surroundings where
  homes : Homes
  env : List (String × Text) := []
  /-- The full path of a file that can be read, for a path to it. -/
  file? : Text → Option Text

inductive Plan where
  | usage
  | help
  | version
  | unconfigured (t : Trouble)
  | run (config : Config) (level : Level) (c : Command)
  deriving DecidableEq

namespace Plan

def groupOptions : List OptionSpec :=
  [Command.helpOption, { key := "version", names := ["--version"], takesValue := false },
    { key := "kubeconfig", names := ["--kubeconfig"] },
    { key := "context", names := ["--context"] },
    { key := "namespace", names := ["--namespace", "-n"] },
    { key := "name", names := ["--name"] }, { key := "log-level", names := ["--log-level"] }]

def levelNames : List String := ["DEBUG", "INFO", "WARNING", "ERROR", "CRITICAL"]

structure Group where
  overrides : List (String × Json)
  level : Level
  name : Text
  args : List Text

def kubeconfig? (w : Surroundings) (g : Given) : Option (Option Text) :=
  match g.value? "kubeconfig" with
  | none => some none
  | some path => (w.file? path).map some

def readGroup (w : Surroundings) (g : Given) : Option Group := do
  let kubeconfig ← kubeconfig? w g
  let level ← (choice? levelNames ((g.value? "log-level").getD "WARNING")).bind Level.ofName?
  let name :: args := g.rest | none
  let given (key : String) (value : Option Text) : List (String × Json) :=
    (value.map fun t => (key, .str t)).toList
  pure {
    overrides :=
      given "kubeconfig_path" kubeconfig ++ given "context" (g.value? "context") ++
        given "namespace" (g.value? "namespace") ++ given "name" (g.value? "name")
    level, name, args }

def configure (w : Surroundings) (overrides : List (String × Json)) : Except Trouble Config := do
  let base ← Config.ofEnv w.homes w.env
  Config.ofFields w.homes (setFields base.fields overrides)

def unknownCommand (name : Text) (args : List Text) : Plan :=
  -- a name that looks like an option is read as one once more
  if isOption name then
    match ask groupOptions false (name :: args) fun _ => (none : Option Unit) with
    | .help => .help
    | .version => .version
    | _ => .usage
  else .usage

def ofGroup (w : Surroundings) (g : Group) : Plan :=
  match Command.lookup? g.name with
  | none => unknownCommand g.name g.args
  | some (specs, read) =>
    match configure w g.overrides with
    | .error t => .unconfigured t
    | .ok config =>
      match ask specs true g.args read with
      | .usage => .usage
      | .help => .help
      | .version => .version
      | .run c => .run config g.level c

def ofArgs (w : Surroundings) (args : List Text) : Plan :=
  match ask groupOptions false args (readGroup w) with
  | .usage => .usage
  | .help => .help
  | .version => .version
  | .run g => ofGroup w g

end Plan

/-! ### Runs -/

def usageText : String := "Usage: authmap [OPTIONS] COMMAND [ARGS]...\n"

def helpText : String :=
  usageText ++ "\nCommands:\n" ++
    "  get             List IAM identity mappings.\n" ++
    "  create          Map an IAM role or user to a Kubernetes username and groups.\n" ++
    "  delete          Remove the mapping for an IAM role or user.\n" ++
    "  add-account     Add an AWS account to mapAccounts.\n" ++
    "  remove-account  Remove an AWS account from mapAccounts.\n"

def versionText : String := "authmap " ++ libraryVersion ++ "\n"

def Report.unconfigured : Trouble → Report
  | .invalid fs =>
    { exitCode := .usage,
      errors := errorText ("Invalid configuration: " ++ (Trouble.invalid fs).message) [] }
  | t => .ofTrouble t

def Command.connected (connect : Gateway → Except StoreError Gateway) (config : Config)
    (c : Command) : Work Text := do
  let g ← Work.ofStore (connect { config })
  c.execute g

def Plan.report (connect : Gateway → Except StoreError Gateway) (p : Plan) (s : Session) :
    Report × Session :=
  match p with
  | .usage => ({ exitCode := .usage, errors := usageText }, s)
  | .help => ({ exitCode := .success, output := helpText }, s)
  | .version => ({ exitCode := .success, output := versionText }, s)
  | .unconfigured t => (.unconfigured t, s)
  | .run config _ c =>
    match c.connected connect config s with
    | .ok text s => (.ofText text, s)
    | .error t s => (.ofTrouble t, s)

end AuthMap.Cli
