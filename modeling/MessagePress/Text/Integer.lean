/-! Reading bounded integers from their digits. The first fault met from the left is the
one reported, so a digit that makes the number too large hides a bad character behind it. -/

namespace MessagePress.Text

inductive IntegerFault
  | empty
  | invalidDigit
  | tooLarge
  deriving DecidableEq, Repr

def IntegerFault.message : IntegerFault → String
  | .empty => "cannot parse integer from empty string"
  | .invalidDigit => "invalid digit found in string"
  | .tooLarge => "number too large to fit in target type"

/-- The value of an ASCII digit or letter in a radix up to 36. -/
def digitValue? (radix : Nat) (c : Char) : Option Nat :=
  let value :=
    if '0' ≤ c ∧ c ≤ '9' then c.toNat - '0'.toNat
    else if 'a' ≤ c ∧ c ≤ 'z' then c.toNat - 'a'.toNat + 10
    else if 'A' ≤ c ∧ c ≤ 'Z' then c.toNat - 'A'.toNat + 10
    else radix
  if value < radix then some value else none

/-- Reads the remaining digits of a number whose first digits are worth `value`. -/
def readDigits (radix limit : Nat) : Nat → List Char → Except IntegerFault Nat
  | value, [] => .ok value
  | value, c :: rest =>
    match digitValue? radix c with
    | none => .error .invalidDigit
    | some digit =>
      if value * radix + digit ≤ limit then readDigits radix limit (value * radix + digit) rest
      else .error .tooLarge

/-- A number from zero to `limit`; one leading plus sign is allowed. -/
def readNat (radix limit : Nat) : List Char → Except IntegerFault Nat
  | [] => .error .empty
  | ['+'] => .error .invalidDigit
  | '+' :: digits => readDigits radix limit 0 digits
  | digits => readDigits radix limit 0 digits

/-- A number from `-lowest` to `greatest` with an optional sign. -/
def readInt? (radix lowest greatest : Nat) : List Char → Option Int
  | '-' :: digits =>
    if digits.isEmpty then none
    else (readDigits radix lowest 0 digits).toOption.map fun value => -(value : Int)
  | digits => (readNat radix greatest digits).toOption.map Int.ofNat

end MessagePress.Text
