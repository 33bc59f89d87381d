import Mathlib.Data.List.GetD
import MessagePress.Proofs.Draws

/-! Identifiers read back. The digits of an identifier are those of its sixteen bytes, so as many bits
tell identifiers apart as are drawn: all of them, or all but the six that mark a version and a variant. -/

namespace MessagePress.Proofs.Identifiers
open MessagePress.Random Draws

variable {bytes drawn marked first second rest : List UInt8} {text : List Char} {index bit : ℕ}

def hexDigits : List Char := "0123456789abcdef".toList

/-- Reads bytes of two digits each. -/
def readBytes : List Char → Option (List UInt8)
  | [] => some []
  | high :: low :: rest => do
    let upper ← hexDigits.idxOf? high
    let lower ← hexDigits.idxOf? low
    return .ofNat (16 * upper + lower) :: (← readBytes rest)
  | _ => none

/-- The bytes of an identifier, whatever its groups. -/
def decode (text : List Char) : Option (List UInt8) := readBytes (text.filter (· ≠ '-'))

/-- A text of five groups of lowercase digits, which are those of the bytes. -/
structure Spells (bytes : List UInt8) (text : List Char) : Prop where
  groups : ∃ groups : List (List Char), text = ['-'].intercalate groups ∧
    groups.map List.length = [8, 4, 4, 4, 12] ∧ ∀ group ∈ groups, ∀ c ∈ group, c ∈ hexDigits
  decoded : decode text = some bytes

theorem digit_read : ∀ value < 16, hexDigits.idxOf? value.digitChar = some value := by decide

theorem digit_plain : ∀ value < 16, value.digitChar ∈ hexDigits ∧ value.digitChar ≠ '-' := by decide

theorem halves_lt (byte : UInt8) : byte.toNat / 16 < 16 ∧ byte.toNat % 16 < 16 :=
  ⟨Nat.div_lt_of_lt_mul byte.toNat_lt, Nat.mod_lt _ (by decide)⟩

theorem hexByte_digits (byte : UInt8) : ∀ c ∈ hexByte byte, c ∈ hexDigits ∧ c ≠ '-' := by
  obtain ⟨upper, lower⟩ := halves_lt byte
  simp [hexByte, digit_plain _ upper, digit_plain _ lower]

theorem hexBytes_digits : ∀ c ∈ hexBytes bytes, c ∈ hexDigits ∧ c ≠ '-' := by
  intro c inside
  obtain ⟨byte, -, among⟩ := List.mem_flatMap.mp inside
  exact hexByte_digits byte c among

theorem hexBytes_length : (hexBytes bytes).length = 2 * bytes.length := by
  induction bytes with
  | nil => rfl
  | cons byte bytes ih =>
    change (hexBytes bytes).length + 2 = _
    rw [ih, List.length_cons, Nat.mul_succ]

theorem hexBytes_append : hexBytes (first ++ second) = hexBytes first ++ hexBytes second :=
  List.flatMap_append

theorem readBytes_hexBytes : readBytes (hexBytes bytes) = some bytes := by
  induction bytes with
  | nil => rfl
  | cons byte bytes ih =>
    obtain ⟨upper, lower⟩ := halves_lt byte
    change readBytes (_ :: _ :: hexBytes bytes) = _
    simp only [readBytes, digit_read _ upper, digit_read _ lower, ih, Option.bind_eq_bind, Option.bind_some,
      Nat.div_add_mod, UInt8.ofNat_toNat, Option.pure_def]

theorem hyphenated_filter : (hyphenated bytes).filter (· ≠ '-') = hexBytes bytes := by
  have kept (bytes : List UInt8) : (hexBytes bytes).filter (· ≠ '-') = hexBytes bytes :=
    List.filter_eq_self.mpr fun c inside => decide_eq_true (hexBytes_digits c inside).2
  have hyphen : ['-'].filter (· ≠ '-') = [] := rfl
  simp only [hyphenated, List.filter_append, kept, hyphen, List.append_nil, ← hexBytes_append]
  have rejoin (start count : ℕ) : (bytes.drop start).take count ++ bytes.drop (start + count) = bytes.drop start := by
    rw [← List.drop_drop, List.take_append_drop]
  rw [List.append_assoc, List.append_assoc, List.append_assoc, rejoin 8 2, rejoin 6 2, rejoin 4 2,
    List.take_append_drop]

theorem decode_hyphenated : decode (hyphenated bytes) = some bytes := by
  rw [decode, hyphenated_filter, readBytes_hexBytes]

theorem hyphenated_spells (length : bytes.length = 16) : Spells bytes (hyphenated bytes) where
  groups := by
    refine ⟨[bytes.take 4, (bytes.drop 4).take 2, (bytes.drop 6).take 2, (bytes.drop 8).take 2, bytes.drop 10].map
      hexBytes, by simp [hyphenated, List.intercalate, List.intersperse], by simp [hexBytes_length, length], ?_⟩
    intro group inside c among
    obtain ⟨part, -, rfl⟩ := List.mem_map.mp inside
    exact (hexBytes_digits c among).1
  decoded := decode_hyphenated

theorem hyphenated_inj : hyphenated first = hyphenated second ↔ first = second := by
  refine ⟨fun same => ?_, congrArg hyphenated⟩
  exact Option.some.inj (decode_hyphenated.symm.trans ((congrArg decode same).trans decode_hyphenated))

def bitAt (bytes : List UInt8) (index bit : ℕ) : Bool := (bytes.getD index 0).toNat.testBit bit

/-- The bits that are the same in all marked identifiers: the upper half of byte six is four, and the
top two bits of byte eight are two. -/
def fixedBit (index bit : ℕ) : Option Bool :=
  if index = 6 ∧ 4 ≤ bit then some (Nat.testBit 4 (bit - 4))
  else if index = 8 ∧ 6 ≤ bit then some (Nat.testBit 2 (bit - 6))
  else none

/-- The bits of sixteen bytes that are not fixed. -/
def freeBits : List (ℕ × ℕ) :=
  ((List.range 16).flatMap fun index => (List.range 8).map (index, ·)).filter fun place =>
    fixedBit place.1 place.2 = none

/-- Sixteen bytes with the fixed bits put in, and all others as they were drawn. -/
structure Marked (drawn marked : List UInt8) : Prop where
  length : marked.length = 16
  bits : ∀ index < 16, ∀ bit < 8, bitAt marked index bit = (fixedBit index bit).getD (bitAt drawn index bit)

/-- Bytes that differ in no free bit. -/
def Agree (first second : List UInt8) : Prop :=
  ∀ place ∈ freeBits, bitAt first place.1 place.2 = bitAt second place.1 place.2

theorem mem_freeBits : (index, bit) ∈ freeBits ↔ (index < 16 ∧ bit < 8) ∧ fixedBit index bit = none := by
  simp [freeBits]

theorem eq_of_bits (length : first.length = 16) (also : second.length = 16)
    (same : ∀ index < 16, ∀ bit < 8, bitAt first index bit = bitAt second index bit) : first = second := by
  refine List.ext_getElem (length.trans also.symm) fun index inside within => UInt8.toNat_inj.mp ?_
  refine Nat.eq_of_testBit_eq fun bit => ?_
  rcases Nat.lt_or_ge bit 8 with small | large
  · have equal := same index (length ▸ inside) bit small
    rwa [bitAt, bitAt, List.getD_eq_getElem _ _ inside, List.getD_eq_getElem _ _ within] at equal
  · have beyond (byte : UInt8) : byte.toNat.testBit bit = false :=
      Nat.testBit_lt_two_pow (Nat.lt_of_lt_of_le byte.toNat_lt (Nat.pow_le_pow_right (by decide) large))
    rw [beyond, beyond]

theorem marked_bit (byte keep put : UInt8) (low value bit : ℕ) (keeps : keep.toNat = 2 ^ low - 1)
    (puts : put.toNat = 2 ^ low * value) : ((byte &&& keep) ||| put).toNat.testBit bit =
      if low ≤ bit then value.testBit (bit - low) else byte.toNat.testBit bit := by
  rw [UInt8.toNat_or, UInt8.toNat_and, Nat.testBit_or, Nat.testBit_and, keeps, puts, Nat.testBit_two_pow_sub_one,
    Nat.testBit_two_pow_mul]
  by_cases above : low ≤ bit
  · simp [above, Nat.not_lt.mpr above]
  · simp [above, Nat.lt_of_not_le above]

theorem markVersion4_bit (length : drawn.length = 16) (inside : index < 16) (bit : ℕ) :
    bitAt (markVersion4 drawn) index bit = (fixedBit index bit).getD (bitAt drawn index bit) := by
  have known : drawn[index]? = some (drawn.getD index 0) := by
    rw [List.getD_eq_getElem _ _ (length ▸ inside), List.getElem?_eq_getElem]
  rw [bitAt, bitAt, markVersion4, List.getD_eq_getElem?_getD, List.getElem?_modify, List.getElem?_modify, known,
    fixedBit]
  by_cases version : index = 6
  · subst version
    have marked := marked_bit (drawn.getD 6 0) 0x0f 0x40 4 4 bit rfl rfl
    by_cases upper : 4 ≤ bit
    · simpa [upper] using marked
    · simpa [upper] using marked
  · by_cases variant : index = 8
    · subst variant
      have marked := marked_bit (drawn.getD 8 0) 0x3f 0x80 6 2 bit rfl rfl
      by_cases upper : 6 ≤ bit
      · simpa [upper] using marked
      · simpa [upper] using marked
    · simp [version, variant, Ne.symm version, Ne.symm variant]

theorem markVersion4_marked (length : drawn.length = 16) : Marked drawn (markVersion4 drawn) where
  length := by rw [markVersion4, List.length_modify, List.length_modify, length]
  bits index inside bit _ := markVersion4_bit length inside bit

/-- A mark keeps the free bits and no other difference. -/
theorem markVersion4_inj (length : first.length = 16) (also : second.length = 16) :
    markVersion4 first = markVersion4 second ↔ Agree first second := by
  constructor
  · rintro same ⟨index, bit⟩ free
    obtain ⟨⟨inside, -⟩, unfixed⟩ := mem_freeBits.mp free
    have marked := markVersion4_bit length inside bit
    rwa [same, markVersion4_bit also inside, unfixed, Option.getD_none, Option.getD_none, eq_comm] at marked
  · intro agree
    refine eq_of_bits (markVersion4_marked length).length (markVersion4_marked also).length ?_
    intro index inside bit small
    rw [markVersion4_bit length inside, markVersion4_bit also inside]
    rcases fixed : fixedBit index bit with none | value
    · exact agree (index, bit) (mem_freeBits.mpr ⟨⟨inside, small⟩, fixed⟩)
    · rfl

variable {source : Source}

theorem draw_enough (enough : 16 ≤ source.bytes.length) :
    source.draw 16 = (.ok (source.bytes.take 16), ⟨source.bytes.drop 16⟩) := if_pos enough

theorem guid_enough (enough : 16 ≤ source.bytes.length) :
    guid source = (.ok (hyphenated (source.bytes.take 16)), ⟨source.bytes.drop 16⟩) := by
  rw [guid, draw_enough enough]; rfl

theorem uuid4_enough (enough : 16 ≤ source.bytes.length) :
    uuid4 source = (.ok (hyphenated (markVersion4 (source.bytes.take 16))), ⟨source.bytes.drop 16⟩) := by
  rw [uuid4, draw_enough enough]; rfl

theorem identifiers_short (few : source.bytes.length < 16) :
    guid source = (.error .exhausted, source) ∧ uuid4 source = (.error .exhausted, source) := by
  constructor
  · rw [guid, draw_short few]; rfl
  · rw [uuid4, draw_short few]; rfl

/-- Identifiers take sixteen bytes, or nothing where fewer are left, and their digits read back as those
bytes, marked or not: they are equal exactly where all bits drawn are equal, or all those but six. -/
theorem identifiers_read_back (source other : Source) :
    (source.bytes.length < 16 →
      guid source = (.error .exhausted, source) ∧ uuid4 source = (.error .exhausted, source)) ∧
    (16 ≤ source.bytes.length → ∃ plain text marked,
      guid source = (.ok plain, ⟨source.bytes.drop 16⟩) ∧ Spells (source.bytes.take 16) plain ∧
      uuid4 source = (.ok text, ⟨source.bytes.drop 16⟩) ∧ Spells marked text ∧
      Marked (source.bytes.take 16) marked) ∧
    (16 ≤ source.bytes.length → 16 ≤ other.bytes.length →
      ((guid source).1 = (guid other).1 ↔ source.bytes.take 16 = other.bytes.take 16) ∧
      ((uuid4 source).1 = (uuid4 other).1 ↔ Agree (source.bytes.take 16) (other.bytes.take 16))) ∧
    freeBits.length = 122 := by
  have drawn {source : Source} (enough : 16 ≤ source.bytes.length) : (source.bytes.take 16).length = 16 :=
    List.length_take_of_le enough
  refine ⟨identifiers_short, fun enough => ?_, fun enough also => ⟨?_, ?_⟩, by decide +kernel⟩
  · have marked := markVersion4_marked (drawn enough)
    exact ⟨_, _, _, guid_enough enough, hyphenated_spells (drawn enough), uuid4_enough enough,
      hyphenated_spells marked.length, marked⟩
  · rw [guid_enough enough, guid_enough also, Except.ok.injEq, hyphenated_inj]
  · rw [uuid4_enough enough, uuid4_enough also, Except.ok.injEq, hyphenated_inj,
      markVersion4_inj (drawn enough) (drawn also)]

/-- Bytes that differ in the fixed bits only, and a source that is a byte short. -/
theorem identifiers_read_back_zeros :
    let zeros : Source := ⟨List.replicate 17 0⟩
    let differing : Source := ⟨((List.replicate 17 0).set 6 0xf0).set 8 0xc0⟩
    let short : Source := ⟨List.replicate 15 0⟩
    (guid short = (.error .exhausted, short) ∧ uuid4 short = (.error .exhausted, short)) ∧
    (∃ plain text marked, guid zeros = (.ok plain, ⟨[0]⟩) ∧ Spells (List.replicate 16 0) plain ∧
      uuid4 zeros = (.ok text, ⟨[0]⟩) ∧ Spells marked text ∧ Marked (List.replicate 16 0) marked) ∧
    (guid zeros).1 ≠ (guid differing).1 ∧ (uuid4 zeros).1 = (uuid4 differing).1 := by
  intro zeros differing short
  have whole := identifiers_read_back zeros differing
  have apart := whole.2.2.1 (by decide) (by decide)
  exact ⟨(identifiers_read_back short zeros).1 (by decide), whole.2.1 (by decide),
    mt apart.1.mp (by decide), apart.2.mpr (by unfold Agree; decide +kernel)⟩

example : uuid4 ⟨(List.range 17).map UInt8.ofNat⟩ =
    (.ok "00010203-0405-4607-8809-0a0b0c0d0e0f".toList, ⟨[16]⟩) := by decide

end MessagePress.Proofs.Identifiers
