import MessagePress.Yaml.Fault

/-! The characters of a document's bytes. Bytes are taken in chunks; an unreadable byte
hides the chunk it stands in, and shows only to a reader that gets as far as that chunk. -/

namespace MessagePress.Yaml

/-- The characters that can be read, and why there are no more, if more were to come. -/
structure Source where
  chars : List Char
  broken : Option SyntaxFault

def chunkSize : Nat := 16384

/-- Tabs, line breaks and visible characters may stand in a document. -/
def isAllowed (code : Nat) : Bool :=
  code == 0x09 || code == 0x0a || code == 0x0d || (0x20 ≤ code && code ≤ 0x7e) || code == 0x85 ||
    (0xa0 ≤ code && code ≤ 0xd7ff) || (0xe000 ≤ code && code ≤ 0xfffd) ||
    (0x10000 ≤ code && code ≤ 0x10ffff)

/-- The length of a sequence by its first byte, and that byte's own bits. -/
def sequenceHead? (byte : Nat) : Option (Nat × Nat) :=
  if byte < 0x80 then some (1, byte)
  else if byte / 32 = 6 then some (2, byte % 32)
  else if byte / 16 = 14 then some (3, byte % 16)
  else if byte / 8 = 30 then some (4, byte % 8)
  else none

/-- Adds the bits of continuing bytes; `place` counts them for a fault. -/
def joinBits (offset : Nat) : Nat → List UInt8 → Except SyntaxFault Nat
  | value, [] => .ok value
  | value, byte :: rest =>
    if byte.toNat / 64 = 2 then joinBits (offset + 1) (value * 64 + byte.toNat % 64) rest
    else .error (.unreadable .trailingOctet offset)

def leastCode (width : Nat) : Nat :=
  if width = 1 then 0 else if width = 2 then 0x80 else if width = 3 then 0x800 else 0x10000

/-- The character of a complete sequence at a byte offset. -/
def decodeSequence (offset width head : Nat) (tail : List UInt8) : Except SyntaxFault Char := do
  let code ← joinBits (offset + 1) head tail
  if code < leastCode width then throw (.unreadable .sequenceLength offset)
  else if (0xd800 ≤ code ∧ code ≤ 0xdfff) ∨ 0x10ffff < code then
    throw (.unreadable .invalidCharacter offset)
  else if !isAllowed code then throw (.unreadable .controlCharacter offset)
  else return Char.ofNat code

/-- Reads at most `steps` characters. `shown` are those of complete chunks and `fresh` those
of the present one, both in reverse; `room` bytes are left in that chunk. -/
def readChars : Nat → (shown fresh : List Char) → (room offset : Nat) → List UInt8 → Source
  | 0, shown, fresh, _, _, _ => ⟨(fresh ++ shown).reverse, none⟩
  | _, shown, fresh, _, _, [] => ⟨(fresh ++ shown).reverse, none⟩
  | steps + 1, shown, fresh, room, offset, first :: rest =>
    match sequenceHead? first.toNat with
    | none => ⟨shown.reverse, some (.unreadable .leadingOctet offset)⟩
    | some (width, head) =>
      if room < width then readChars steps (fresh ++ shown) [] chunkSize offset (first :: rest)
      else if (rest.take (width - 1)).length < width - 1 then
        ⟨(fresh ++ shown).reverse, some (.unreadable .incompleteSequence offset)⟩
      else
        match decodeSequence offset width head (rest.take (width - 1)) with
        | .error fault => ⟨shown.reverse, some fault⟩
        | .ok c =>
          readChars steps shown (c :: fresh) (room - width) (offset + width)
            (rest.drop (width - 1))

def Source.ofBytes (bytes : List UInt8) : Source :=
  readChars (2 * bytes.length + 1) [] [] chunkSize 0 bytes

end MessagePress.Yaml
