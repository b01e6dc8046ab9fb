import AuthMap.Yaml.Token
import AuthMap.Decimal.Reading
import AuthMap.Decimal.Shortest

/-! Values of scalars: when two of them are the same key, and how messages show them. -/

namespace AuthMap.Yaml

structure Date where
  year : Nat
  month : Nat
  day : Nat
  deriving DecidableEq, Repr

/-- A date with a time of day, in a zone at a distance of seconds from universal time if it has
one. -/
structure Moment where
  date : Date
  hour : Nat
  minute : Nat
  second : Nat
  micro : Nat
  zone : Option Int
  deriving DecidableEq, Repr

inductive Scalar where
  | null
  | bool (b : Bool)
  | int (n : Int)
  | real (x : Float)
  /-- The undefined number that has a notation of its own. -/
  | undefined
  | text (t : Text)
  | bytes (bs : List UInt8)
  | date (d : Date)
  | moment (m : Moment)
  deriving Repr, Inhabited

def Date.isLeap (y : Nat) : Bool := (y % 4 = 0 && y % 100 ≠ 0) || y % 400 = 0

def Date.monthLength (y m : Nat) : Nat :=
  if m = 2 then (if isLeap y then 29 else 28) else if [4, 6, 9, 11].contains m then 30 else 31

def Date.ordinal (d : Date) : Nat :=
  let y := d.year - 1
  365 * y + y / 4 - y / 100 + y / 400 +
    (List.range (d.month - 1)).foldl (fun n m => n + monthLength d.year (m + 1)) 0 + d.day

/-- Microseconds since the start of the calendar, in universal time where a zone is known. -/
def Moment.micros (m : Moment) : Int :=
  ((((m.date.ordinal * 24 + m.hour : Nat) * 60 + m.minute : Nat) * 60 + m.second : Nat) -
    m.zone.getD 0) * 1000000 + m.micro

namespace Scalar

def realIsInt (x : Float) (n : Int) : Bool :=
  match Decimal.parts x with
  | .finite b =>
    let size := n.natAbs
    let isSized : Bool :=
      if 0 ≤ b.q then b.m * Nat.pow 2 b.q.toNat = size
      else b.m = size * Nat.pow 2 (-b.q).toNat
    isSized && (b.m = 0 || b.negative = decide (n < 0))
  | _ => false

def int? : Scalar → Option Int
  | .bool b => some (if b then 1 else 0)
  | .int n => some n
  | _ => none

def same (a b : Scalar) : Bool :=
  match a, b with
  | .null, .null => true
  | .text a, .text b => a = b
  | .bytes a, .bytes b => a = b
  | .date a, .date b => a = b
  | .moment a, .moment b => a.zone.isSome = b.zone.isSome && a.micros = b.micros
  -- a number that came out undefined is like no other, and the one with a notation like itself
  | .real x, .real y => x == y
  | .undefined, .undefined => true
  | .real x, b => b.int?.any (realIsInt x)
  | a, .real y => a.int?.any (realIsInt y)
  | a, b =>
    match a.int?, b.int? with
    | some m, some n => m = n
    | _, _ => false

def typeName : Scalar → String
  | .null => "NoneType"
  | .bool _ => "bool"
  | .int _ => "int"
  | .real _ | .undefined => "float"
  | .text _ => "str"
  | .bytes _ => "bytes"
  | .date _ => "date"
  | .moment _ => "datetime"

def shownZone (seconds : Int) : String :=
  if seconds = 0 then "datetime.timezone.utc"
  else
    "datetime.timezone(" ++
      durationText (Int.fdiv seconds 86400) (Int.fmod seconds 86400) ++ ")"

def shownDate (d : Date) : List String := [toString d.year, toString d.month, toString d.day]

def shownMoment (m : Moment) : String :=
  let seconds := if m.second = 0 && m.micro = 0 then [] else [toString m.second]
  let micros := if m.micro = 0 then [] else [toString m.micro]
  let zone := match m.zone with
    | some z => ["tzinfo=" ++ shownZone z]
    | none => []
  "datetime.datetime(" ++ String.intercalate ", "
    (shownDate m.date ++ [toString m.hour, toString m.minute] ++ seconds ++ micros ++ zone) ++ ")"

/-- The text of a scalar in messages; `none` for an integer that is too long. -/
def shown? : Scalar → Option String
  | .null => some "None"
  | .bool b => some (if b then "True" else "False")
  | .int n => if n.natAbs < Nat.pow 10 mostDigits then some (toString n) else none
  | .real x => some (Decimal.render x)
  | .undefined => some "nan"
  | .text t => some t.quoted
  | .bytes bs => some (Text.quotedBytes bs)
  | .date d => some ("datetime.date(" ++ String.intercalate ", " (shownDate d) ++ ")")
  | .moment m => some (shownMoment m)

end Scalar

end AuthMap.Yaml
