import MessagePress.Json.Reader

/-! Texts go through their bytes unharmed. ASCII characters are bytes of their own, and no
byte of another character is an ASCII one, so a reader of bytes cannot take a part of a
character for a mark. -/

namespace MessagePress.Proofs.Utf8Coding
open Text.Utf8

theorem encodeChar_cases (c : Char) :
    (c.toNat < 0x80 ∧ String.utf8EncodeChar c = [UInt8.ofNat c.toNat]) ∨
    (0x80 ≤ c.toNat ∧ c.toNat < 0x800 ∧ String.utf8EncodeChar c =
      [UInt8.ofNat (c.toNat / 64 % 32 + 192), UInt8.ofNat (c.toNat % 64 + 128)]) ∨
    (0x800 ≤ c.toNat ∧ c.toNat < 0x10000 ∧ String.utf8EncodeChar c =
      [UInt8.ofNat (c.toNat / 4096 % 16 + 224), UInt8.ofNat (c.toNat / 64 % 64 + 128),
        UInt8.ofNat (c.toNat % 64 + 128)]) ∨
    (0x10000 ≤ c.toNat ∧ c.toNat < 0x110000 ∧ String.utf8EncodeChar c =
      [UInt8.ofNat (c.toNat / 262144 % 8 + 240), UInt8.ofNat (c.toNat / 4096 % 64 + 128),
        UInt8.ofNat (c.toNat / 64 % 64 + 128), UInt8.ofNat (c.toNat % 64 + 128)]) := by
  have same : c.toNat = c.val.toNat := rfl
  have valid : c.toNat < 0x110000 := by
    have range := c.valid
    simp only [UInt32.isValidChar, Nat.isValidChar] at range
    omega
  unfold String.utf8EncodeChar
  simp only [← same]
  split
  next one => exact Or.inl ⟨by omega, rfl⟩
  next =>
    split
    next two => exact Or.inr (Or.inl ⟨by omega, by omega, rfl⟩)
    next =>
      split
      next three => exact Or.inr (Or.inr (Or.inl ⟨by omega, by omega, rfl⟩))
      next => exact Or.inr (Or.inr (Or.inr ⟨by omega, by omega, rfl⟩))

private theorem toNat_byte {n : Nat} (small : n < 256) : (UInt8.ofNat n).toNat = n := by
  rw [UInt8.toNat_ofNat']
  omega

private theorem continuation?_byte (n : Nat) :
    continuation? (UInt8.ofNat (n % 64 + 128)) = some (n % 64) := by
  rw [continuation?, toNat_byte (by omega), if_pos (by omega)]
  congr 1
  omega

private theorem charAbove?_toNat {c : Char} {least code : Nat} (same : code = c.toNat)
    (above : least ≤ c.toNat) : charAbove? least code = some c := by
  subst same
  rw [charAbove?, dif_pos ⟨above, c.valid⟩]
  rfl

/-- A character is decoded from its own bytes, whatever follows them. -/
theorem decode?_encodeChar (c : Char) (rest : List UInt8) :
    decode? (String.utf8EncodeChar c ++ rest) = (decode? rest).map (c :: ·) := by
  obtain ⟨one, bytes⟩ | ⟨least, most, bytes⟩ | ⟨least, most, bytes⟩ | ⟨least, most, bytes⟩ :=
    encodeChar_cases c
  · rw [bytes, List.singleton_append, decode?.eq_def]
    simp only [toNat_byte (show c.toNat < 256 by omega), if_pos one, Char.ofNat_toNat]
  · have lead : c.toNat / 64 % 32 + 192 < 256 := by omega
    rw [bytes, List.cons_append, List.singleton_append, decode?.eq_def]
    simp only [toNat_byte lead, continuation?_byte]
    rw [if_neg (by omega), if_neg (by omega), if_pos (by omega)]
    have code : (c.toNat / 64 % 32 + 192) % 32 * 64 + c.toNat % 64 = c.toNat := by omega
    simp only [Option.bind_eq_bind, Option.bind_some, charAbove?_toNat code least]
    cases decode? rest <;> rfl
  · have lead : c.toNat / 4096 % 16 + 224 < 256 := by omega
    rw [bytes, List.cons_append, List.cons_append, List.singleton_append, decode?.eq_def]
    simp only [toNat_byte lead, continuation?_byte]
    rw [if_neg (by omega), if_neg (by omega), if_neg (by omega), if_pos (by omega)]
    have code : ((c.toNat / 4096 % 16 + 224) % 16 * 64 + c.toNat / 64 % 64) * 64 + c.toNat % 64 =
        c.toNat := by omega
    simp only [Option.bind_eq_bind, Option.bind_some, charAbove?_toNat code least]
    cases decode? rest <;> rfl
  · have lead : c.toNat / 262144 % 8 + 240 < 256 := by omega
    rw [bytes, List.cons_append, List.cons_append, List.cons_append, List.singleton_append,
      decode?.eq_def]
    simp only [toNat_byte lead, continuation?_byte]
    rw [if_neg (by omega), if_neg (by omega), if_neg (by omega), if_neg (by omega),
      if_pos (by omega)]
    have code : (((c.toNat / 262144 % 8 + 240) % 8 * 64 + c.toNat / 4096 % 64) * 64 +
        c.toNat / 64 % 64) * 64 + c.toNat % 64 = c.toNat := by omega
    simp only [Option.bind_eq_bind, Option.bind_some, charAbove?_toNat code least]
    cases decode? rest <;> rfl

theorem decode?_encode (text : List Char) : decode? (encode text) = some text := by
  induction text with
  | nil => rfl
  | cons c text ih =>
    rw [encode, List.flatMap_cons, decode?_encodeChar]
    exact congrArg (Option.map (c :: ·)) ih

theorem encode_injective {text other : List Char} (same : encode text = encode other) : text = other :=
  Option.some.inj ((decode?_encode text).symm.trans ((congrArg decode? same).trans (decode?_encode other)))

end MessagePress.Proofs.Utf8Coding
