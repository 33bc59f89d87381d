/-! Texts as bytes. Decoding accepts exactly the bytes that encoding gives: no overlong
sequences, no surrogates and no code beyond the last one. -/

namespace MessagePress.Text.Utf8

def encode (text : List Char) : List UInt8 := text.flatMap String.utf8EncodeChar

/-- The low six bits of a byte that continues a sequence. -/
def continuation? (byte : UInt8) : Option Nat :=
  if byte.toNat / 64 = 2 then some (byte.toNat % 64) else none

/-- The character of a code, if the code is not below the least one of its length. -/
def charAbove? (least code : Nat) : Option Char :=
  if h : least ≤ code ∧ code.isValidChar then some (Char.ofNatAux code h.2) else none

/-- Decodes bytes; `none` where they are not a text. -/
def decode? : List UInt8 → Option (List Char)
  | [] => some []
  | a :: rest =>
    if a.toNat < 0x80 then (decode? rest).map fun text => Char.ofNat a.toNat :: text
    else if a.toNat < 0xc0 then none
    else if a.toNat < 0xe0 then
      match rest with
      | b :: rest => do
        let c ← charAbove? 0x80 (a.toNat % 32 * 64 + (← continuation? b))
        return c :: (← decode? rest)
      | _ => none
    else if a.toNat < 0xf0 then
      match rest with
      | b :: c :: rest => do
        let code := (a.toNat % 16 * 64 + (← continuation? b)) * 64 + (← continuation? c)
        return (← charAbove? 0x800 code) :: (← decode? rest)
      | _ => none
    else if a.toNat < 0xf8 then
      match rest with
      | b :: c :: d :: rest => do
        let code := ((a.toNat % 8 * 64 + (← continuation? b)) * 64 + (← continuation? c)) * 64 +
          (← continuation? d)
        return (← charAbove? 0x10000 code) :: (← decode? rest)
      | _ => none
    else none

/-- How many bytes stand before the first one that belongs to no character. -/
def validLength (bytes : List UInt8) : Nat :=
  ((List.range (bytes.length + 1)).reverse.find? fun length =>
    (decode? (bytes.take length)).isSome).getD 0

end MessagePress.Text.Utf8
