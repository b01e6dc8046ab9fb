import AuthMap.Cli.Plan

/-! The command line. There is no cluster to reach from here, so that commands end where they
would connect. -/

namespace AuthMap.Main

open Cli

def variableNames : List String :=
  ["AUTHMAP_NAME", "AUTHMAP_NAMESPACE", "AUTHMAP_CONTEXT", "KUBECONFIG"]

def environment : IO (List (String × Text)) :=
  variableNames.filterMapM fun name => do
    pure ((← IO.getEnv name).map fun value => (name, Text.ofString value))

def namedFile (args : List Text) : IO (Option (Text × Text)) := do
  let given := (parse Plan.groupOptions false args).bind (·.value? "kubeconfig")
  match given.bind Text.string? with
  | none => pure none
  | some path =>
    try
      let full ← IO.FS.realPath path
      if (← full.pathExists) && !(← full.isDir) then
        pure (some (Text.ofString path, Text.ofString full.toString))
      else pure none
    catch _ => pure none

def sources : Gateway.Sources where
  incluster := some (.unconfigured "Service host/port is not set.")
  kubeconfig := some (.unconfigured "Invalid kube-config file. No configuration found.")

def connect (g : Gateway) : Except StoreError Gateway :=
  let r := g.startup sources
  r.result.map fun _ => r.gateway

def userHomes : IO (List (Text × Text)) := do
  try
    let lines ← IO.FS.lines "/etc/passwd"
    pure (lines.toList.filterMap fun line =>
      match line.splitOn ":" with
      | name :: _ :: _ :: _ :: _ :: home :: _ => some (Text.ofString name, Text.ofString home)
      | _ => none)
  catch _ => pure []

def run (args : List String) : IO UInt32 := do
  let args := args.map Text.ofString
  let file ← namedFile args
  let w : Surroundings := {
    homes := { own := Text.ofString ((← IO.getEnv "HOME").getD "/"), others := ← userHomes }
    env := ← environment
    file? := fun path => (file.filter (·.1 = path)).map (·.2) }
  let (r, _) := (Plan.ofArgs w args).report connect {}
  IO.print r.output
  IO.eprint r.errors
  match r.escaped with
  | some t => IO.eprintln (t.kind ++ ": " ++ t.message)
  | none => pure ()
  pure r.exitCode.code.toUInt32

end AuthMap.Main

def main (args : List String) : IO UInt32 := AuthMap.Main.run args
