import AuthMap.Text.CodePoint
import AuthMap.Text.Parts

/-!
Options on a command line. A long option takes its value after an equals sign or from the next
argument; options of one letter may stand together, the last of them with its value behind it.
Two dashes alone end the options.
-/

namespace AuthMap.Cli

structure OptionSpec where
  key : String
  names : List String
  takesValue : Bool := true
  deriving DecidableEq, Repr

/-- What was given: options with their values in order, and the arguments left over. -/
structure Given where
  options : List (String × Text) := []
  rest : List Text := []
  deriving DecidableEq, Repr

namespace Given

def has (key : String) (g : Given) : Bool := g.options.any (·.1 = key)

def values (key : String) (g : Given) : List Text :=
  (g.options.filter (·.1 = key)).map (·.2)

def value? (key : String) (g : Given) : Option Text := (g.values key).getLast?

end Given

def named (specs : List OptionSpec) (name : Text) : Option OptionSpec :=
  specs.find? fun s => (s.names.map Text.ofString).contains name

/-- Options read from one argument, and whether the argument after it was taken as a value. -/
abbrev Step := Option (List (String × Text) × Bool)

def withValue (s : OptionSpec) (attached : Option Text) (next : Option Text) : Step :=
  match attached, next with
  | some value, _ => some ([(s.key, value)], false)
  | none, some value => some ([(s.key, value)], true)
  | none, none => none

def longOption (s : OptionSpec) (attached : Option Text) (next : Option Text) : Step :=
  if s.takesValue then withValue s attached next
  else if attached.isSome then none
  else some ([(s.key, [])], false)

def letters (specs : List OptionSpec) (next : Option Text) : Text → Step
  | [] => some ([], false)
  | p :: t =>
    match named specs [.char '-', p] with
    | none => none
    | some s =>
      if s.takesValue then withValue s (if t.isEmpty then none else some t) next
      else (letters specs next t).map fun r => ((s.key, []) :: r.1, r.2)

def step (specs : List OptionSpec) (arg : Text) (next : Option Text) : Step :=
  let (name, attached) := Text.cut (· = .char '=') arg
  let long := if name.length = 2 && name.head? = some (.char '-') then none else named specs name
  match long with
  | some s => longOption s attached next
  | none =>
    if arg.take 2 = "--" then none else letters specs next arg.tail

def isOption (arg : Text) : Bool := arg.head? = some (.char '-') && 1 < arg.length

/-- Reads arguments. With `mixed` options may stand after other arguments. -/
def parse (specs : List OptionSpec) (mixed : Bool) : List Text → Option Given
  | [] => some {}
  | arg :: args =>
    if arg = "--" then some { rest := args }
    else if isOption arg then
      match step specs arg args.head? with
      | none => none
      | some (items, false) =>
        (parse specs mixed args).map fun g => { g with options := items ++ g.options }
      | some (items, true) =>
        -- the next argument was the value of the last option
        (parse specs mixed args.tail).map fun g => { g with options := items ++ g.options }
    else if mixed then (parse specs mixed args).map fun g => { g with rest := arg :: g.rest }
    else some { rest := arg :: args }
termination_by args => args.length
decreasing_by
  all_goals simp only [List.length_cons, List.length_tail]
  all_goals omega

def folded (c : Char) : Char :=
  if c = '\u017F' then 's' else if c = '\u212A' then 'k' else c.toLower

/-- The choice that a text is, upper and lower case taken for the same. -/
def choice? (choices : List String) (value : Text) : Option String :=
  choices.find? fun choice => value.chars?.map (·.map folded) = some (choice.toList.map folded)

end AuthMap.Cli
