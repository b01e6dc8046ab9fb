import AuthMap.Json.Shown
import AuthMap.Text.Control
import AuthMap.Text.Encoding
import AuthMap.Trouble

/-! How a run of the command line ends: its exit code, and what it prints. -/

namespace AuthMap.Cli

inductive ExitCode where
  | success
  | general
  | usage
  | notFound
  | accessDenied
  | invalid
  | api
  deriving DecidableEq, Repr

def ExitCode.code : ExitCode → Nat
  | .success => 0
  | .general => 1
  | .usage => 2
  | .notFound => 3
  | .accessDenied => 4
  | .invalid => 5
  | .api => 8

def exitCodeFor : StoreError → ExitCode
  | .accessDenied _ => .accessDenied
  | .persistence _ => .api
  | .notFound _ | .identityNotFound _ | .accountNotFound _ => .notFound
  | .invalidIdentity _ | .malformedArn _ | .unclassifiedArn _ _ | .undecodable _ _
  | .unencodable _ _ _ => .invalid
  | .other _ => .general

def errorText (message : String) (context : List (String × Json)) : String :=
  -- null is left out, though it still brings the parentheses
  let known := context.filter fun f => match f.2 with | .null => false | _ => true
  let shown := String.intercalate ", " (known.map fun f => f.1 ++ "=" ++ f.2.shown)
  let line := "Error: " ++ message ++ (if context.isEmpty then "" else " (" ++ shown ++ ")") ++ "\n"
  (Text.uncontrolled line).escaped

structure Report where
  exitCode : ExitCode
  output : String := ""
  errors : String := ""
  /-- What ended the run without being an error of the store. -/
  escaped : Option Trouble := none

def Report.ofTrouble : Trouble → Report
  | .store e => { exitCode := exitCodeFor e, errors := errorText e.message [] }
  | t => { exitCode := .general, escaped := some t }

/-- What it comes to when a text is written out that has halves. -/
def unwritten (t : Text) : Trouble := .raised (.other "UnicodeEncodeError" t.encodeFault?)

/-- The report on a text to be printed. Errors are printed with their halves as escapes; here a half
ends the run. -/
def Report.ofText (t : Text) : Report :=
  let t := t.uncontrolled
  match t.string? with
  | some s => { exitCode := .success, output := s }
  | none => .ofTrouble (unwritten t)

end AuthMap.Cli
