/-!
The shortest decimal that reads back as a given binary number, found exactly: the number is
`m · 2 ^ q`, the reals that round to it form an interval, and of the decimal grids with one, two,
… seventeen digits the first that has a point in the interval supplies the digits.
-/

namespace AuthMap.Decimal

/-- A finite binary number `(-1) ^ negative · m · 2 ^ q`. -/
structure Binary where
  negative : Bool
  m : Nat
  q : Int
  deriving Repr, DecidableEq

inductive Parts where
  | finite (b : Binary)
  | infinite (negative : Bool)
  | undefined
  deriving Repr, DecidableEq

def parts (x : Float) : Parts :=
  let bits := x.toBits.toNat
  let negative := bits / Nat.pow 2 63 == 1
  let exponent : Nat := bits / Nat.pow 2 52 % 2048
  let fraction : Nat := bits % Nat.pow 2 52
  if exponent = 2047 then
    if fraction = 0 then .infinite negative else .undefined
  else if exponent = 0 then .finite ⟨negative, fraction, -1074⟩
  else .finite ⟨negative, fraction + Nat.pow 2 52, (exponent : Int) - 1075⟩

structure Ratio where
  num : Nat
  den : Nat

def Ratio.scaled (n base : Nat) (e : Int) : Ratio :=
  if 0 ≤ e then ⟨n * Nat.pow base e.toNat, 1⟩ else ⟨n, Nat.pow base (-e).toNat⟩

/-- The largest `k` such that `10 ^ k` is not above a positive quotient at least one, by counting
digits of the whole part. -/
def wholeLog (n : Nat) : Nat := (Nat.toDigits 10 n).length - 1

/-- How often a quotient below one is multiplied by ten until it is one or more. -/
def raise : Nat → Nat → Nat → Nat
  | 0, _, _ => 0
  | fuel + 1, num, den => if den ≤ num then 0 else raise fuel (num * 10) den + 1

def leading (r : Ratio) : Int :=
  if r.den ≤ r.num then (wholeLog (r.num / r.den) : Int) else -(raise 400 r.num r.den : Int)

/-- The interval that rounds to `m · 2 ^ q`, and the number itself, all in units of
`2 ^ (q - 2)`. -/
def bounds (m : Nat) (q : Int) : Nat × Nat × Nat :=
  -- the gap below a power of two is half as wide
  let low := if m = Nat.pow 2 52 ∧ -1074 < q then 1 else 2
  (4 * m - low, 4 * m, 4 * m + 2)

/-- The point nearest to the number among those of a decimal grid that read back, if any. -/
def onGrid (m : Nat) (q : Int) (step : Int) : Option Nat :=
  let unit := Ratio.scaled 1 2 (q - 2)
  let ten := Ratio.scaled 1 10 step
  let (low, mid, high) := bounds m q
  -- a grid point `d` stands at `d · left`, a bound `b` at `b · right`
  let left := ten.num * unit.den
  let right := unit.num * ten.den
  let inside (d : Nat) : Bool :=
    if m % 2 = 0 then low * right ≤ d * left && d * left ≤ high * right
    else low * right < d * left && d * left < high * right
  let below := mid * right / left
  let above := below + 1
  let toBelow := mid * right - below * left
  let toAbove := above * left - mid * right
  let aboveNearer := toAbove < toBelow || (toAbove = toBelow && below % 2 = 1)
  match inside below, inside above with
  | true, true => some (if aboveNearer then above else below)
  | true, false => some below
  | false, true => some above
  | false, false => none

structure Digits where
  digits : List Char
  exponent : Int
  deriving Repr, DecidableEq

def dropTrailingZeros (cs : List Char) : List Char :=
  (cs.reverse.dropWhile (· = '0')).reverse

/-- Tries grids of ever more digits, `tried` of them so far. -/
def search (m : Nat) (q : Int) (top : Int) : Nat → Nat → Digits
  | 0, _ => ⟨['0'], 0⟩
  | left + 1, tried =>
    let step := top - (tried : Int)
    match onGrid m q step with
    | some d =>
      let cs := Nat.toDigits 10 d
      ⟨dropTrailingZeros cs, step + (cs.length : Int) - 1⟩
    | none => search m q top left (tried + 1)

def shortest (m : Nat) (q : Int) : Digits :=
  if m = 0 then ⟨['0'], 0⟩ else search m q (leading (Ratio.scaled m 2 q)) 18 0

structure Layout where
  /-- Exponents of the leading digit that are written with a point and no exponent. -/
  lowest : Int
  highest : Int
  /-- Least number of digits of a written exponent. -/
  exponentWidth : Nat

def padLeft (width : Nat) (cs : List Char) : List Char :=
  List.replicate (width - cs.length) '0' ++ cs

def Layout.place (l : Layout) (d : Digits) : List Char :=
  if l.lowest ≤ d.exponent && d.exponent ≤ l.highest then
    if d.exponent < 0 then
      '0' :: '.' :: (List.replicate ((-d.exponent).toNat - 1) '0' ++ d.digits)
    else
      let whole := d.exponent.toNat + 1
      let fraction := d.digits.drop whole
      d.digits.take whole ++ List.replicate (whole - d.digits.length) '0' ++
        '.' :: (if fraction.isEmpty then ['0'] else fraction)
  else
    let mantissa := match d.digits with
      | [] => []
      | [c] => [c]
      | c :: rest => c :: '.' :: rest
    let sign := if d.exponent < 0 then '-' else '+'
    mantissa ++ 'e' :: sign :: padLeft l.exponentWidth (Nat.toDigits 10 d.exponent.natAbs)

/-- A point from one ten-thousandth up to ten to the sixteenth, an exponent of two digits or more
outside. -/
def plainLayout : Layout := ⟨-4, 15, 2⟩

def render (x : Float) : String :=
  match parts x with
  | .undefined => "nan"
  | .infinite negative => if negative then "-inf" else "inf"
  | .finite b =>
    let text := plainLayout.place (shortest b.m b.q)
    String.ofList (if b.negative then '-' :: text else text)

end AuthMap.Decimal
