import AuthMap.Text.LowerCase
import AuthMap.Text.Parts
import AuthMap.Yaml.Scalar
import AuthMap.Yaml.Tag

/-! The value of a scalar of a given type, from its text. -/

namespace AuthMap.Yaml

namespace Scalar

/-- A sign, if there is one, and what follows it; there must be something. -/
def signed? : Text → Option (Bool × Text)
  | [] => none
  | .char '-' :: t => some (true, t)
  | .char '+' :: t => some (false, t)
  | t => some (false, t)

def readInt (base : Nat) (t : Text) : Except ValueFault Int :=
  -- the limit on digits comes before all else that may be wrong
  let count := Decimal.digitCount t.leadingChars
  if base = 10 && mostDigits < count then .error (.digits count)
  else match t.chars?.bind (Decimal.integer? base) with
    | some n => .ok n
    | none => .error (.integer base t)

def sixtieths (t : Text) : List Text := Text.splitOn (.char ':') t

def intOf (t : Text) : Except ValueFault Int := do
  let some (negative, body) := signed? (t.filter (· ≠ .char '_')) | .error .noNumber
  let size ←
    match body with
    | [] => .error .noNumber
    | [.char '0'] => .ok 0
    | .char '0' :: .char 'b' :: rest => readInt 2 rest
    | .char '0' :: .char 'x' :: rest => readInt 16 rest
    -- the zero is read along, so that no sign may stand behind it
    | .char '0' :: rest => readInt 8 (.char '0' :: rest)
    | body =>
      if body.contains (.char ':') then do
        let parts ← (sixtieths body).mapM (readInt 10)
        pure (parts.foldl (fun n part => n * 60 + part) 0)
      else readInt 10 body
  pure (if negative then -size else size)

def readFraction (t : Text) : Except ValueFault Float :=
  match t.chars?.bind Decimal.float? with
  | some x => .ok x
  | none => .error (.fraction t)

/-- The number that groups to base sixty write, the least significant first. Every group needs a
unit within the range of floats. -/
def sixties : Float → Nat → List Float → Except ValueFault Float
  | total, _, [] => .ok total
  | total, base, x :: xs =>
    let unit := Float.ofNat base
    if unit.isInf then .error .hugeUnit else sixties (total + x * unit) (base * 60) xs

def realOf (t : Text) : Except ValueFault Scalar := do
  let some (negative, body) := signed? (Text.lower (t.filter (· ≠ .char '_')))
    | .error .noNumber
  if body = Text.ofString ".nan" then pure .undefined
  else
    let size ←
      if body = Text.ofString ".inf" then pure (1 / 0)
      else if body.contains (.char ':') then do
        let parts ← (sixtieths body).mapM readFraction
        sixties 0 1 parts.reverse
      else readFraction body
    pure (.real (if negative then -size else size))

def boolOf (t : Text) : Except ValueFault Bool :=
  let word := Text.lower t
  if ["yes", "true", "on"].any fun s => word = Text.ofString s then .ok true
  else if ["no", "false", "off"].any fun s => word = Text.ofString s then .ok false
  else .error (.truth word)

/-! ### Dates -/

def number (cs : List Char) : Nat := (Decimal.natural? 10 cs).getD 0

def zoneOffset : Option (Bool × List Char × List Char) → Except ValueFault Int
  | none => .ok 0
  | some (west, hours, minutes) =>
    let size : Int := ((number hours * 60 + number minutes) * 60 : Nat)
    let offset := if west then -size else size
    if size < 86400 then .ok offset
    else .error (.offset (Int.fdiv offset 86400) (Int.fmod offset 86400))

def checkDate (d : Date) : Except ValueFault Unit :=
  if d.year = 0 then .error (.year 0)
  else if d.month = 0 || 12 < d.month then .error .month
  else if d.day = 0 || Date.monthLength d.year d.month < d.day then .error .day
  else .ok ()

def microsOf (fraction : List Char) : Nat :=
  let digits := fraction.take 6
  number (digits ++ List.replicate (6 - digits.length) '0')

def stampValue (s : Tag.Stamp) : Except ValueFault Scalar := do
  let date : Date := ⟨number s.year, number s.month, number s.day⟩
  match s.clock with
  | none =>
    checkDate date
    pure (.date date)
  | some (hour, minute, second, fraction) =>
    let zone ←
      match s.zone with
      | none => pure none
      | some z => (zoneOffset z).map some
    let m : Moment := ⟨date, number hour, number minute, number second, microsOf fraction, zone⟩
    checkDate date
    if 23 < m.hour then .error .hour
    else if 59 < m.minute then .error .minute
    else if 59 < m.second then .error .second
    else pure (.moment m)

def timestampOf (t : Text) : Except ValueFault Scalar :=
  match t.chars?.bind fun cs => Tag.stamp? (Tag.dropLastBreak cs) with
  | some s => stampValue s
  | none => .error .timestamp

/-! ### Bytes -/

def sixtyFour? (c : Char) : Option Nat :=
  if c.isUpper then some (c.toNat - 0x41)
  else if c.isLower then some (c.toNat - 0x61 + 26)
  else if c.isDigit then some (c.toNat - 0x30 + 52)
  else if c = '+' then some 62
  else if c = '/' then some 63
  else none

/-- Bytes written to base sixty-four, four digits for three of them; `left` holds the bits of the
last digit that no byte has yet. -/
def bytesFrom (place pads left : Nat) : List Char → Option (List UInt8)
  | [] => if place = 0 then some [] else none
  | c :: cs =>
    if c = '=' then
      if 2 ≤ place then
        -- padding that completes a group ends the text
        if 4 ≤ place + (pads + 1) then some [] else bytesFrom place (pads + 1) left cs
      else bytesFrom place pads left cs
    else match sixtyFour? c with
      | none => bytesFrom place pads left cs
      | some d =>
        match place with
        | 0 => bytesFrom 1 0 d cs
        | 1 => (bytesFrom 2 0 (d % 16) cs).map (UInt8.ofNat (left * 4 + d / 16) :: ·)
        | 2 => (bytesFrom 3 0 (d % 4) cs).map (UInt8.ofNat (left * 16 + d / 4) :: ·)
        | _ => (bytesFrom 0 0 0 cs).map (UInt8.ofNat (left * 64 + d) :: ·)

def bytesOf (t : Text) : Except Fault Scalar :=
  let ascii? := t.chars?.filter fun cs => cs.all fun c => c.toNat < 0x80
  match ascii?.bind (bytesFrom 0 0 0) with
  | some bs => .ok (.bytes bs)
  | none => .error .malformed

end Scalar

def valued (r : Except ValueFault α) : Except Fault α :=
  match r with
  | .ok a => .ok a
  | .error f => .error (.value f)

namespace Tag

def isContainer : Tag → Bool
  | .seq | .map | .set | .omap | .pairs => true
  | _ => false

def scalar (tag : Tag) (t : Text) : Except Fault Scalar :=
  match tag with
  | .null => .ok .null
  | .bool => valued ((Scalar.boolOf t).map .bool)
  | .int => valued ((Scalar.intOf t).map .int)
  | .float => valued (Scalar.realOf t)
  | .text => .ok (.text t)
  | .binary => Scalar.bytesOf t
  | .timestamp => valued (Scalar.timestampOf t)
  | _ => .error .malformed

end Tag

end AuthMap.Yaml
