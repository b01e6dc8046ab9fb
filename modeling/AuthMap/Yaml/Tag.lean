import AuthMap.Text.CodePoint

/-! The types of YAML nodes, and the type that a plain scalar has by its text alone. -/

namespace AuthMap.Yaml

inductive Tag where
  | null
  | bool
  | int
  | float
  | text
  | binary
  | timestamp
  | merge
  | value
  | seq
  | map
  | set
  | omap
  | pairs
  | other
  deriving DecidableEq, Repr, Inhabited

namespace Tag

def ofName : String → Tag
  | "null" => .null
  | "bool" => .bool
  | "int" => .int
  | "float" => .float
  | "str" => .text
  | "binary" => .binary
  | "timestamp" => .timestamp
  | "merge" => .merge
  | "value" => .value
  | "seq" => .seq
  | "map" => .map
  | "set" => .set
  | "omap" => .omap
  | "pairs" => .pairs
  | _ => .other

def home : List Char := "tag:yaml.org,2002:".toList

def ofAddress (address : List Char) : Tag :=
  if home.isPrefixOf address then ofName (String.ofList (address.drop home.length)) else .other

/-! ### Texts that are not strings -/

def truths : List String := ["yes", "Yes", "YES", "true", "True", "TRUE", "on", "On", "ON"]

def falsehoods : List String :=
  ["no", "No", "NO", "false", "False", "FALSE", "off", "Off", "OFF"]

def nulls : List String := ["", "~", "null", "Null", "NULL"]

def isDigitOr_ (c : Char) : Bool := c.isDigit || c = '_'

def unsigned : List Char → List Char
  | '+' :: cs => cs
  | '-' :: cs => cs
  | cs => cs

/-- What follows groups of a colon and a number below sixty; there must be one. -/
def afterSixties : List Char → Option (List Char)
  | ':' :: a :: b :: cs =>
    if a.isDigit then
      if a ≤ '5' && b.isDigit then some ((afterSixties cs).getD cs)
      else some ((afterSixties (b :: cs)).getD (b :: cs))
    else none
  | [':', a] => if a.isDigit then some [] else none
  | _ => none

def isExponent : List Char → Bool
  | [] => true
  | c :: s :: cs =>
    (c = 'e' || c = 'E') && (s = '+' || s = '-') && !cs.isEmpty && cs.all Char.isDigit
  | _ => false

def afterDigits : List Char → Option (List Char)
  | c :: cs => if c.isDigit then some (cs.dropWhile isDigitOr_) else none
  | [] => none

def isFloat (cs : List Char) : Bool :=
  let body := unsigned cs
  let decimal := match afterDigits body with
    | some ('.' :: rest) => isExponent (rest.dropWhile isDigitOr_)
    | some rest =>
      match afterSixties rest with
      | some ('.' :: rest) => rest.all isDigitOr_
      | _ => false
    | none => false
  let pointed := match cs with
    | '.' :: rest => (afterDigits rest).any isExponent
    | _ => false
  decimal || pointed || [".inf", ".Inf", ".INF"].contains (String.ofList body) ||
    [".nan", ".NaN", ".NAN"].contains (String.ofList cs)

def isBinaryDigit (c : Char) : Bool := c = '0' || c = '1' || c = '_'

def isOctalDigit (c : Char) : Bool := ('0' ≤ c && c ≤ '7') || c = '_'

def isHexDigit_ (c : Char) : Bool :=
  c.isDigit || ('a' ≤ c && c ≤ 'f') || ('A' ≤ c && c ≤ 'F') || c = '_'

def isInt (cs : List Char) : Bool :=
  match unsigned cs with
  | ['0'] => true
  | '0' :: 'b' :: rest => !rest.isEmpty && rest.all isBinaryDigit
  | '0' :: 'x' :: rest => !rest.isEmpty && rest.all isHexDigit_
  | '0' :: rest => rest.all isOctalDigit
  | c :: rest =>
    c.isDigit && (rest.all isDigitOr_ || afterSixties (rest.dropWhile isDigitOr_) = some [])
  | [] => false

structure Stamp where
  year : List Char
  month : List Char
  day : List Char
  /-- Hour, minute, second and the digits of a fraction. -/
  clock : Option (List Char × List Char × List Char × List Char) := none
  /-- Nothing, the mark of universal time, or a sign with hours and minutes. -/
  zone : Option (Option (Bool × List Char × List Char)) := none
  deriving DecidableEq, Repr

/-- Between `lo` and `hi` digits, as many as there are, and what follows. -/
def someDigits (lo hi : Nat) (cs : List Char) : Option (List Char × List Char) :=
  let digits := (cs.take hi).takeWhile Char.isDigit
  if digits.length < lo then none else some (digits, cs.drop digits.length)

def isTabOrSpace (c : Char) : Bool := c = ' ' || c = '\t'

def zone? (cs : List Char) : Option (Option (Option (Bool × List Char × List Char))) :=
  match cs, cs.dropWhile isTabOrSpace with
  | [], _ => some none
  | _, ['Z'] => some (some none)
  | _, s :: rest => do
    if s = '+' || s = '-' then
      let (hours, rest) ← someDigits 1 2 rest
      match rest with
      | [] => some (some (some (s = '-', hours, [])))
      | ':' :: rest =>
        let (minutes, rest) ← someDigits 2 2 rest
        if rest.isEmpty then some (some (some (s = '-', hours, minutes))) else none
      | _ => none
    else none
  | _, [] => none

def clock? (cs : List Char) :
    Option ((List Char × List Char × List Char × List Char) × List Char) := do
  let rest ←
    match cs with
    | 'T' :: rest => some rest
    | 't' :: rest => some rest
    | c :: rest => if isTabOrSpace c then some (rest.dropWhile isTabOrSpace) else none
    | [] => none
  let (hour, rest) ← someDigits 1 2 rest
  let ':' :: rest := rest | none
  let (minute, rest) ← someDigits 2 2 rest
  let ':' :: rest := rest | none
  let (second, rest) ← someDigits 2 2 rest
  match rest with
  | '.' :: rest =>
    some ((hour, minute, second, rest.takeWhile Char.isDigit), rest.dropWhile Char.isDigit)
  | rest => some ((hour, minute, second, []), rest)

def stamp? (cs : List Char) : Option Stamp := do
  let (year, rest) ← someDigits 4 4 cs
  let '-' :: rest := rest | none
  let (month, rest) ← someDigits 1 2 rest
  let '-' :: rest := rest | none
  let (day, rest) ← someDigits 1 2 rest
  if rest.isEmpty then some { year, month, day }
  else
    let (clock, rest) ← clock? rest
    let zone ← zone? rest
    some { year, month, day, clock := some clock, zone }

def isTimestamp (cs : List Char) : Bool :=
  match stamp? cs with
  -- a date alone needs two digits for the month and for the day
  | some s => s.clock.isSome || (s.month.length = 2 && s.day.length = 2)
  | none => false

/-- One line feed at the end does not count, unless it is all there is. -/
def dropLastBreak (cs : List Char) : List Char :=
  match cs.reverse with
  | '\n' :: c :: rest => (c :: rest).reverse
  | _ => cs

def ofChars (cs : List Char) : Tag :=
  let cs := dropLastBreak cs
  let word := String.ofList cs
  if truths.contains word || falsehoods.contains word then .bool
  else if isFloat cs then .float
  else if isInt cs then .int
  else if word = "<<" then .merge
  else if nulls.contains word then .null
  else if isTimestamp cs then .timestamp
  else if word = "=" then .value
  else .text

/-- The type of a text that may hold halves; only whole texts are more than strings. -/
def ofText (t : Text) : Tag := t.chars?.elim .text ofChars

end Tag

end AuthMap.Yaml
