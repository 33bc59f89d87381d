/-! Finite binary64 numbers as exact values, with every result rounded to the nearest
number and a tie to the even significand. Rounding is one function on a quotient of
naturals; decimal texts, products and quotients all go through it, and a result above the
greatest finite number is `none`. -/

namespace MessagePress

/-- The number `significand * 2 ^ exponent`, negated when `negative` is set. -/
structure Binary64 where
  negative : Bool
  significand : Nat
  exponent : Int
  deriving DecidableEq, Repr

namespace Binary64

def leastExponent : Int := -1074

def greatestExponent : Int := 971

def zero (negative : Bool) : Binary64 := ⟨negative, 0, leastExponent⟩

def isZero (x : Binary64) : Bool := x.significand == 0

def negate (x : Binary64) : Binary64 := { x with negative := !x.negative }

/-- The quotient of two naturals divided by a power of two, again as a quotient. -/
def scaled (numerator denominator : Nat) (exponent : Int) : Nat × Nat :=
  if 0 ≤ exponent then (numerator, denominator * Nat.pow 2 exponent.toNat)
  else (numerator * Nat.pow 2 (-exponent).toNat, denominator)

/-- The exponent at which a quotient has 53 bits before its point, if that is in range. -/
def unitExponent (numerator denominator : Nat) : Int :=
  let guess : Int := Nat.log2 numerator - Nat.log2 denominator - 52
  let (top, bottom) := scaled numerator denominator guess
  max leastExponent (if top < bottom * Nat.pow 2 52 then guess - 1 else guess)

/-- The integer nearest to a quotient, the even one of two equally near. -/
def nearestInteger (numerator denominator : Nat) : Nat :=
  let whole := numerator / denominator
  let twice := 2 * (numerator % denominator)
  if twice < denominator then whole
  else if denominator < twice then whole + 1
  else whole + whole % 2

/-- The number itself unless it is above the greatest one. -/
def inRange? (x : Binary64) : Option Binary64 :=
  if greatestExponent < x.exponent then none else some x

/-- The number of a rounded significand, which may have grown to the next power of two. -/
def ofRounded? (negative : Bool) (rounded : Nat) (exponent : Int) : Option Binary64 :=
  if rounded = Nat.pow 2 53 then inRange? ⟨negative, Nat.pow 2 52, exponent + 1⟩
  else inRange? ⟨negative, rounded, exponent⟩

/-- The number nearest to a quotient of naturals. -/
def ofQuotient? (negative : Bool) (numerator denominator : Nat) : Option Binary64 :=
  if numerator = 0 then some (zero negative)
  else
    let exponent := unitExponent numerator denominator
    let parts := scaled numerator denominator exponent
    ofRounded? negative (nearestInteger parts.1 parts.2) exponent

/-- The number nearest to `significand * 10 ^ exponent`. Exponents far outside the range
are settled by the number of digits alone. -/
def ofDecimal? (negative : Bool) (significand : Nat) (exponent : Int) : Option Binary64 :=
  if significand = 0 then some (zero negative)
  else
    let magnitude : Int := exponent + (Nat.toDigits 10 significand).length
    if 310 < magnitude then none
    else if magnitude < -330 then some (zero negative)
    else if 0 ≤ exponent then ofQuotient? negative (significand * Nat.pow 10 exponent.toNat) 1
    else ofQuotient? negative significand (Nat.pow 10 (-exponent).toNat)

/-- A number without its sign as a quotient of naturals. -/
def magnitude (x : Binary64) : Nat × Nat :=
  if 0 ≤ x.exponent then (x.significand * Nat.pow 2 x.exponent.toNat, 1)
  else (x.significand, Nat.pow 2 (-x.exponent).toNat)

def mul? (x y : Binary64) : Option Binary64 :=
  let (xTop, xBottom) := x.magnitude
  let (yTop, yBottom) := y.magnitude
  ofQuotient? (x.negative != y.negative) (xTop * yTop) (xBottom * yBottom)

/-- The quotient of two numbers; the second one must not be zero. -/
def div? (x y : Binary64) : Option Binary64 :=
  let (xTop, xBottom) := x.magnitude
  let (yTop, yBottom) := y.magnitude
  ofQuotient? (x.negative != y.negative) (xTop * yBottom) (xBottom * yTop)

end Binary64

end MessagePress
