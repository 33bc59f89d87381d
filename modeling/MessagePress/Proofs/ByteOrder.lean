import MessagePress.Proofs.MemberLists
import MessagePress.Proofs.Utf8Coding

/-! The order of texts. Code points and the bytes that encode them order texts alike, so the
members of an object, kept in order of their names, are in order of the names' bytes. -/

namespace MessagePress.Proofs.ByteOrder
open Text.Utf8 MemberLists Utf8Coding

/-- Members in strictly increasing order of the bytes of their names. -/
def ByteOrdered (members : Json.Members) : Prop :=
  members.Pairwise fun first second => encode first.1.toList < encode second.1.toList

variable {c d : Char} {first second : List UInt8}

private theorem cons_lt_cons {a b : Nat} (left : a < 256) (right : b < 256) :
    UInt8.ofNat a :: first < UInt8.ofNat b :: second ↔ a < b ∨ a = b ∧ first < second := by
  have same : UInt8.ofNat a = UInt8.ofNat b ↔ a = b := by
    rw [← UInt8.toNat_inj, UInt8.toNat_ofNat', UInt8.toNat_ofNat', Nat.mod_eq_of_lt left,
      Nat.mod_eq_of_lt right]
  rw [List.cons_lt_cons_iff, same, UInt8.lt_iff_toNat_lt, UInt8.toNat_ofNat', UInt8.toNat_ofNat',
    Nat.mod_eq_of_lt left, Nat.mod_eq_of_lt right]

private theorem encodeChar_lead (c : Char) : ∃ lead rest,
    String.utf8EncodeChar c = UInt8.ofNat lead :: rest ∧ lead < 256 ∧ (c.toNat < 0x80 → lead < 192) ∧
      (c.toNat < 0x800 → lead < 224) ∧ (c.toNat < 0x10000 → lead < 240) := by
  obtain ⟨most, bytes⟩ | ⟨least, most, bytes⟩ | ⟨least, most, bytes⟩ | ⟨least, most, bytes⟩ :=
    encodeChar_cases c
  all_goals exact ⟨_, _, bytes, by omega, by omega, by omega, by omega⟩

theorem encodeChar_lt (less : c.toNat < d.toNat) (first second : List UInt8) :
    String.utf8EncodeChar c ++ first < String.utf8EncodeChar d ++ second := by
  obtain ⟨lead, rest, led, byte, one, two, three⟩ := encodeChar_lead c
  -- The first byte decides between different lengths. Equally many bytes are digits of the code.
  obtain ⟨most, right⟩ | ⟨least, most, right⟩ | ⟨least, most, right⟩ | ⟨least, most, right⟩ :=
    encodeChar_cases d
  · obtain ⟨-, left⟩ | ⟨_, _, -⟩ | ⟨_, _, -⟩ | ⟨_, _, -⟩ := encodeChar_cases c
    · rw [left, right]
      exact (cons_lt_cons (by omega) (by omega)).mpr (Or.inl less)
    all_goals omega
  · by_cases shorter : c.toNat < 0x80
    · rw [led, right]
      exact (cons_lt_cons byte (by omega)).mpr (Or.inl (by omega))
    obtain ⟨_, -⟩ | ⟨_, _, left⟩ | ⟨_, _, -⟩ | ⟨_, _, -⟩ := encodeChar_cases c
    · omega
    · rw [left, right]
      simp (disch := omega) only [List.cons_append, cons_lt_cons]
      omega
    all_goals omega
  · by_cases shorter : c.toNat < 0x800
    · rw [led, right]
      exact (cons_lt_cons byte (by omega)).mpr (Or.inl (by omega))
    obtain ⟨_, -⟩ | ⟨_, _, -⟩ | ⟨_, _, left⟩ | ⟨_, _, -⟩ := encodeChar_cases c
    · omega
    · omega
    · rw [left, right]
      simp (disch := omega) only [List.cons_append, cons_lt_cons]
      omega
    · omega
  · by_cases shorter : c.toNat < 0x10000
    · rw [led, right]
      exact (cons_lt_cons byte (by omega)).mpr (Or.inl (by omega))
    obtain ⟨_, -⟩ | ⟨_, _, -⟩ | ⟨_, _, -⟩ | ⟨_, _, left⟩ := encodeChar_cases c
    · omega
    · omega
    · omega
    · have low : c.toNat / 64 < d.toNat / 64 ∨
          c.toNat / 64 = d.toNat / 64 ∧ c.toNat % 64 < d.toNat % 64 := by omega
      have middle : c.toNat / 64 < d.toNat / 64 → c.toNat / 4096 < d.toNat / 4096 ∨
          c.toNat / 4096 = d.toNat / 4096 ∧ c.toNat / 64 % 64 < d.toNat / 64 % 64 := by omega
      have high : c.toNat / 4096 < d.toNat / 4096 → c.toNat / 262144 < d.toNat / 262144 ∨
          c.toNat / 262144 = d.toNat / 262144 ∧ c.toNat / 4096 % 64 < d.toNat / 4096 % 64 := by omega
      have top : c.toNat / 262144 % 8 = c.toNat / 262144 := by omega
      have top' : d.toNat / 262144 % 8 = d.toNat / 262144 := by omega
      rw [left, right, top, top']
      simp (disch := omega) only [List.cons_append, cons_lt_cons]
      omega

theorem encode_lt {first second : List Char} (less : first < second) : encode first < encode second := by
  induction less with
  | @nil c rest =>
    obtain ⟨lead, bytes, led, -⟩ := encodeChar_lead c
    rw [encode, encode, List.flatMap_nil, List.flatMap_cons, led]
    exact .nil
  | rel less => exact encodeChar_lt less _ _
  | @cons c first second less ih =>
    rw [encode, encode, List.flatMap_cons, List.flatMap_cons]
    exact List.append_left_lt ih

/-- The members of a document are in order of the bytes of their names. -/
theorem ofList_byteOrdered (pairs : List (String × Json)) : ByteOrdered (Json.Members.ofList pairs) :=
  (ofList_ordered pairs).imp fun less => encode_lt (less)

end MessagePress.Proofs.ByteOrder
