import MessagePress.Random.Source

/-! Random numbers of a given count of decimal digits. Words are cut to the bits of the
greatest number wanted and drawn again while they exceed it, which favours no number. -/

namespace MessagePress.Random

def defaultDigits : Int := 6

/-- Longer numbers are not drawn; a word holds every number of this length. -/
def maxDigits : Nat := 18

def wordBytes : Nat := 8

/-- A word with its most significant byte first. -/
def wordOfBytes (bytes : List UInt8) : Nat :=
  bytes.foldl (fun value byte => value * 256 + byte.toNat) 0

/-- How many bits the numbers below a bound take. -/
def bitsBelow (bound : Nat) : Nat := if bound ≤ 1 then 0 else Nat.log2 (bound - 1) + 1

/-- A word without the bits that no number below the bound has. -/
def maskWord (bound word : Nat) : Nat := word % Nat.pow 2 (bitsBelow bound)

/-- Draws at most `draws` words until one is below the bound. -/
def drawBelow (bound : Nat) : Nat → Draw Nat
  | 0, source => (.error .exhausted, source)
  | draws + 1, source =>
    match source.draw wordBytes with
    | (.error fault, left) => (.error fault, left)
    | (.ok bytes, left) =>
      let candidate := maskWord bound (wordOfBytes bytes)
      if candidate < bound then (.ok candidate, left) else drawBelow bound draws left

/-- A number below the bound; a source cannot hold more words than this asks for. -/
def uniformBelow (bound : Nat) : Draw Nat := fun source =>
  if bound ≤ 1 then (.ok 0, source)
  else drawBelow bound (source.bytes.length / wordBytes + 1) source

/-- A number with zeros in front up to a width. -/
def zeroPadded (width value : Nat) : List Char :=
  let digits := Nat.toDigits 10 value
  List.replicate (width - digits.length) '0' ++ digits

/-- So many random digits; no digits or fewer stand for a plain zero. -/
def digits (count : Int) : Draw (List Char) := fun source =>
  if count ≤ 0 then (.ok ['0'], source)
  else
    let width := min count.toNat maxDigits
    let (drawn, left) := uniformBelow (Nat.pow 10 width) source
    (drawn.map (zeroPadded width), left)

end MessagePress.Random
