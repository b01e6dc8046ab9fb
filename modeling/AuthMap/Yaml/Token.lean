import AuthMap.Text.Quoted

/-! The tokens of YAML text. A text that cannot be cut into tokens to its end has a token for the
fault in the last place. -/

namespace AuthMap.Yaml

/-- The longest integers that can be read or shown have as many digits. -/
def mostDigits : Nat := 4300

inductive ValueFault where
  | noCharacter
  | hugeCharacter
  | integer (base : Nat) (text : Text)
  | digits (count : Nat)
  | fraction (text : Text)
  | hugeUnit
  | noNumber
  | truth (text : Text)
  | timestamp
  | notText
  | year (n : Nat)
  | month
  | day
  | hour
  | minute
  | second
  | offset (days seconds : Int)
  deriving DecidableEq, Repr

def durationText (days seconds : Int) : String :=
  let days? := if days = 0 then [] else ["days=" ++ toString days]
  let seconds? := if seconds = 0 then [] else ["seconds=" ++ toString seconds]
  let parts := days? ++ seconds?
  "datetime.timedelta(" ++ (if parts.isEmpty then "0" else String.intercalate ", " parts) ++ ")"

def ValueFault.message : ValueFault → String
  | .noCharacter => "chr() arg not in range(0x110000)"
  | .hugeCharacter => "Python int too large to convert to C int"
  | .integer base text =>
    "invalid literal for int() with base " ++ toString base ++ ": " ++
      String.ofList ((Text.quoted text).toList.take 200)
  | .digits count =>
    "Exceeds the limit (4300 digits) for integer string conversion: value has " ++
      toString count ++ " digits; use sys.set_int_max_str_digits() to increase the limit"
  | .fraction text =>
    "could not convert string to float: " ++ text.quoted
  | .hugeUnit => "int too large to convert to float"
  | .noNumber => "string index out of range"
  | .truth text => text.quoted
  | .timestamp => "'NoneType' object has no attribute 'groupdict'"
  | .notText => "expected string or bytes-like object, got 'list'"
  | .year n => "year " ++ toString n ++ " is out of range"
  | .month => "month must be in 1..12"
  | .day => "day is out of range for month"
  | .hour => "hour must be in 0..23"
  | .minute => "minute must be in 0..59"
  | .second => "second must be in 0..59"
  | .offset days seconds =>
    "offset must be a timedelta strictly between -timedelta(hours=24) and " ++
      "timedelta(hours=24), not " ++ durationText days seconds ++ "."

def ValueFault.kind : ValueFault → String
  | .hugeCharacter | .hugeUnit => "OverflowError"
  | .noNumber => "IndexError"
  | .truth _ => "KeyError"
  | .timestamp => "AttributeError"
  | .notText => "TypeError"
  | _ => "ValueError"

/-- Why a text has no value: it breaks the rules of the notation, or a scalar in it has none. -/
inductive Fault where
  | malformed
  | value (f : ValueFault)
  deriving DecidableEq, Repr

inductive Token where
  | version (major : Nat)
  | shorthand (handle address : List Char)
  | reserved
  | documentStart
  | documentEnd
  | blockSequence
  | blockMapping
  | blockEnd
  | flowSequence
  | flowSequenceEnd
  | flowMapping
  | flowMappingEnd
  | flowEntry
  | blockEntry
  | key
  | value
  | alias (name : List Char)
  | anchor (name : List Char)
  | tag (handle : Option (List Char)) (address : List Char)
  | scalar (text : Text) (plain : Bool)
  | streamEnd
  | fault (f : Fault)
  deriving DecidableEq, Repr

end AuthMap.Yaml
