import MessagePress.Number.Binary64

/-! The shortest decimal that reads back as a given number. A number stands for an
interval of reals that round to it; on the grid of multiples of a power of ten only the
two neighbours of the number can lie in that interval nearest to it, so it is enough to
try them on finer and finer grids. Of two neighbours in the interval the nearer is taken,
and the even one when they are equally near. -/

namespace MessagePress.Binary64

/-- The decimal number `digits * 10 ^ exponent`. -/
structure Decimal where
  digits : Nat
  exponent : Int
  deriving DecidableEq, Repr

def digitCount (value : Nat) : Nat := (Nat.toDigits 10 value).length

/-- The exponent of the first digit of a positive quotient. -/
def leadingExponent (numerator denominator : Nat) : Int :=
  if denominator ≤ numerator then (digitCount (numerator / denominator) : Int) - 1
  else -(digitCount ((denominator - 1) / numerator) : Int)

/-- The reals that round to a number, over a common denominator; the ends belong to the
interval when the significand is even. -/
structure Interval where
  low : Nat
  middle : Nat
  high : Nat
  denominator : Nat
  closed : Bool

/-- The interval times a number. -/
def Interval.scale (range : Interval) (factor : Nat) : Interval :=
  { range with
    low := range.low * factor
    middle := range.middle * factor
    high := range.high * factor }

/-- How far the interval reaches below its middle, in quarters of the last place. -/
def reachBelow (x : Binary64) : Nat :=
  if x.significand = Nat.pow 2 52 ∧ leastExponent < x.exponent then 1 else 2

def interval (x : Binary64) : Interval :=
  let quarter := x.exponent - 2
  let range : Interval :=
    { low := 4 * x.significand - x.reachBelow
      middle := 4 * x.significand
      high := 4 * x.significand + 2
      denominator := 1
      closed := x.significand % 2 == 0 }
  if 0 ≤ quarter then range.scale (Nat.pow 2 quarter.toNat)
  else { range with denominator := Nat.pow 2 (-quarter).toNat }

/-- Whether a numerator over the same denominator lies in the interval. -/
def Interval.holds (range : Interval) (value : Nat) : Bool :=
  if range.closed then range.low ≤ value && value ≤ range.high
  else range.low < value && value < range.high

/-- The nearer of the two neighbours of the middle that lie in the interval, in units that
are given over the same denominator. -/
def Interval.neighbour? (range : Interval) (unit : Nat) : Option Nat :=
  let down := range.middle / unit
  let up := down + 1
  match range.holds (down * unit), range.holds (up * unit) with
  | true, true =>
    let twice := 2 * (range.middle % unit)
    if twice < unit ∨ (twice = unit ∧ down % 2 = 0) then some down else some up
  | true, false => some down
  | false, true => some up
  | false, false => none

/-- The neighbour on the grid of a power of ten. -/
def Interval.onGrid? (range : Interval) (exponent : Int) : Option Decimal :=
  let digits? :=
    if 0 ≤ exponent then range.neighbour? (Nat.pow 10 exponent.toNat * range.denominator)
    else (range.scale (Nat.pow 10 (-exponent).toNat)).neighbour? range.denominator
  digits?.map (⟨·, exponent⟩)

/-- The first hit on grids from `exponent` downwards; seventeen grids always suffice. -/
def Interval.search (range : Interval) : Nat → Int → Decimal
  | 0, exponent => ⟨range.middle / range.denominator, exponent⟩
  | grids + 1, exponent =>
    match range.onGrid? exponent with
    | some decimal => decimal
    | none => range.search grids (exponent - 1)

/-- Zeros at the end of the digits move into the exponent. -/
def Decimal.trimZeros : Nat → Decimal → Decimal
  | 0, decimal => decimal
  | steps + 1, decimal =>
    if decimal.digits % 10 = 0 ∧ decimal.digits ≠ 0 then
      trimZeros steps ⟨decimal.digits / 10, decimal.exponent + 1⟩
    else decimal

/-- The shortest decimal of a number, without its sign; zero has the digit zero. -/
def shortest (x : Binary64) : Decimal :=
  if x.significand = 0 then ⟨0, 0⟩
  else
    let range := x.interval
    Decimal.trimZeros 20 (range.search 18 (leadingExponent range.middle range.denominator))

end MessagePress.Binary64
