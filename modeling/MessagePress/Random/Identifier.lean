import MessagePress.Random.Source

/-! Sixteen random bytes written as an identifier of five groups of lowercase hexadecimal
digits. -/

namespace MessagePress.Random

def hexByte (byte : UInt8) : List Char :=
  [Nat.digitChar (byte.toNat / 16), Nat.digitChar (byte.toNat % 16)]

def hexBytes (bytes : List UInt8) : List Char := bytes.flatMap hexByte

/-- Groups of 8, 4, 4, 4 and 12 digits. -/
def hyphenated (bytes : List UInt8) : List Char :=
  hexBytes (bytes.take 4) ++ ['-'] ++ hexBytes ((bytes.drop 4).take 2) ++ ['-'] ++
    hexBytes ((bytes.drop 6).take 2) ++ ['-'] ++ hexBytes ((bytes.drop 8).take 2) ++ ['-'] ++
    hexBytes (bytes.drop 10)

/-- Version four in the high half of byte six, and the standard variant in the top two bits
of byte eight. -/
def markVersion4 (bytes : List UInt8) : List UInt8 :=
  (bytes.modify 6 fun byte => (byte &&& 0x0f) ||| 0x40).modify 8 fun byte =>
    (byte &&& 0x3f) ||| 0x80

/-- All bits random. -/
def guid : Draw (List Char) := fun source =>
  let (drawn, left) := source.draw 16
  (drawn.map hyphenated, left)

/-- All bits random but those of the version and the variant. -/
def uuid4 : Draw (List Char) := fun source =>
  let (drawn, left) := source.draw 16
  (drawn.map fun bytes => hyphenated (markVersion4 bytes), left)

end MessagePress.Random
