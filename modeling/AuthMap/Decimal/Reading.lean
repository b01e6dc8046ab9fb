import AuthMap.Text.Blank
import AuthMap.Text.Digit

/-! Numbers read from text: integers of a base, and decimal fractions with an exponent. -/

namespace AuthMap.Decimal

/-- The number that digits of a base write, most significant first. -/
def ofDigits? (base : Nat) : Nat → List Char → Option Nat
  | acc, [] => some acc
  | acc, c :: cs =>
    match Text.digitIn? base c with
    | some d => ofDigits? base (acc * base + d) cs
    | none => none

def natural? (base : Nat) : List Char → Option Nat
  | [] => none
  | cs => ofDigits? base 0 cs

def unsigned : List Char → Bool × List Char
  | '-' :: cs => (true, cs)
  | '+' :: cs => (false, cs)
  | cs => (false, cs)

/-- Drops the mark of a base where it stands before digits of that base. -/
def unmarked (base : Nat) : List Char → List Char
  | '0' :: c :: cs =>
    let marks : List Char :=
      if base = 2 then ['b', 'B'] else if base = 8 then ['o', 'O']
      else if base = 16 then ['x', 'X'] else []
    if c ∈ marks then cs else '0' :: c :: cs
  | cs => cs

/-- Blanks that may stand around a number: no information separators. -/
def isBlank (c : Char) : Bool := Text.isBlank c && !(0x1C ≤ c.toNat && c.toNat ≤ 0x1F)

/-- A number without the blanks around it and without its sign, and whether that is a minus. -/
def bare (cs : List Char) : Bool × List Char := unsigned (Text.trimOf isBlank cs)

def integer? (base : Nat) (cs : List Char) : Option Int :=
  let (negative, body) := bare cs
  (natural? base (unmarked base body)).map fun n => if negative then -(n : Int) else n

/-- `m · 10 ^ e` rounded to a float. -/
def toFloat (m : Nat) (e : Int) : Float :=
  let magnitude := e + (Nat.toDigits 10 m).length
  -- sizes beyond the range are settled without computing the power
  if m = 0 then 0
  else if 400 < magnitude then 1 / 0
  else if magnitude < -400 then 0
  else if 0 ≤ e then Float.ofScientific m false e.toNat
  else Float.ofScientific m true (-e).toNat

def lowerAscii (cs : List Char) : List Char := cs.map Char.toLower

def exponent? : List Char → Option Int
  | [] => some 0
  | c :: cs =>
    if c = 'e' || c = 'E' then
      let (negative, digits) := unsigned cs
      (natural? 10 digits).map fun n => if negative then -(n : Int) else n
    else none

def isDigit (c : Char) : Bool := (Text.digitValue? c).isSome

def digitCount (cs : List Char) : Nat := ((bare cs).2.takeWhile isDigit).length

def fraction? (cs : List Char) : Option Float :=
  let word := lowerAscii cs
  if word = "inf".toList || word = "infinity".toList then some (1 / 0)
  else if word = "nan".toList then some (0 / 0)
  else
    let whole := cs.takeWhile isDigit
    let rest := cs.dropWhile isDigit
    let (part, tail) := match rest with
      | '.' :: r => (r.takeWhile isDigit, r.dropWhile isDigit)
      | r => ([], r)
    match natural? 10 (whole ++ part), exponent? tail with
    | some m, some e => some (toFloat m (e - part.length))
    | _, _ => none

def float? (cs : List Char) : Option Float :=
  let (negative, body) := bare cs
  (fraction? body).map fun x => if negative then -x else x

end AuthMap.Decimal
