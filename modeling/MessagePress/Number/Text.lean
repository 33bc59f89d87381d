import MessagePress.Number.Shortest

/-! Decimal texts of numbers. Both notations write the shortest digits; they differ in
where the point goes. Documents switch to a power of ten outside a window of magnitudes,
diagnostics never do. -/

namespace MessagePress.Binary64

def zeros (count : Nat) : List Char := List.replicate count '0'

/-- Digits with a decimal point in place; whole numbers keep one zero behind the point. -/
def positionalText (digits : List Char) (exponent : Int) : List Char :=
  if 0 ≤ exponent then digits ++ zeros exponent.toNat ++ ['.', '0']
  else
    let places := (-exponent).toNat
    if places < digits.length then
      digits.take (digits.length - places) ++ ['.'] ++ digits.drop (digits.length - places)
    else ['0', '.'] ++ zeros (places - digits.length) ++ digits

/-- One digit, the point and further digits if there are any, and a signed power of ten. -/
def scientificText (digits : List Char) (power : Int) : List Char :=
  let fraction := match digits.drop 1 with
    | [] => []
    | rest => '.' :: rest
  let sign := if power < 0 then '-' else '+'
  digits.take 1 ++ fraction ++ ['e', sign] ++ Nat.toDigits 10 power.natAbs

/-- Magnitudes written with a point in place rather than with a power of ten. -/
structure Window where
  least : Int
  greatest : Int

/-- Numbers in documents are positional from `1e-5` up to below `1e16`. -/
def documentWindow : Window := ⟨-5, 15⟩

def signText (x : Binary64) : List Char := if x.negative then ['-'] else []

/-- A number as documents show it. -/
def documentText (x : Binary64) : List Char :=
  let decimal := x.shortest
  let digits := Nat.toDigits 10 decimal.digits
  let power := decimal.exponent + digits.length - 1
  x.signText ++
    if documentWindow.least ≤ power ∧ power ≤ documentWindow.greatest then
      positionalText digits decimal.exponent
    else scientificText digits power

/-- A number as diagnostics show it, positional at every magnitude. -/
def plainText (x : Binary64) : List Char :=
  let decimal := x.shortest
  x.signText ++ positionalText (Nat.toDigits 10 decimal.digits) decimal.exponent

end MessagePress.Binary64
