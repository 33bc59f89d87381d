import Mathlib.Tactic.SplitIfs
import MessagePress.Proofs.PartialRuns
import MessagePress.Proofs.Utf8Coding
import MessagePress.Yaml.Source

/-! The characters of a source. A source that is not broken is the text of its bytes; one that is
broken has no null characters in what can be read of it. -/

namespace MessagePress.Proofs.SourceTexts
open Yaml Utf8Coding PartialRuns
open Text.Utf8 (encode)

variable {first : UInt8} {tail : List UInt8} {width head offset code : Nat} {c : Char}

private theorem byte_eq {n : Nat} (byte : UInt8) (same : n = byte.toNat) : UInt8.ofNat n = byte := by
  rw [same, UInt8.ofNat_toNat]

private theorem joinBits_cons {byte : UInt8} {value : Nat}
    (joined : joinBits offset value (byte :: tail) = .ok code) :
    byte.toNat / 64 = 2 ∧ joinBits (offset + 1) (value * 64 + byte.toNat % 64) tail = .ok code := by
  rw [joinBits] at joined
  split at joined
  next continues => exact ⟨continues, joined⟩
  next => cases joined

private theorem decodeSequence_char (decoded : decodeSequence offset width head tail = .ok c) :
    joinBits (offset + 1) head tail = .ok c.toNat ∧ leastCode width ≤ c.toNat ∧
      isAllowed c.toNat = true := by
  obtain ⟨code, joined, decoded⟩ := of_bind decoded
  split at decoded
  · cases decoded
  split at decoded
  · cases decoded
  split at decoded
  · cases decoded
  next least valid allowed =>
    have same : (Char.ofNat code).toNat = code := by
      have valid : code.isValidChar := by
        simp only [Nat.isValidChar]
        omega
      rw [Char.ofNat, dif_pos valid]
      rfl
    cases decoded
    rw [same]
    exact ⟨joined, Nat.not_lt.mp least, by simpa using allowed⟩

theorem decodeSequence_encode (led : sequenceHead? first.toNat = some (width, head))
    (length : tail.length = width - 1) (decoded : decodeSequence offset width head tail = .ok c) :
    first :: tail = String.utf8EncodeChar c := by
  obtain ⟨joined, least, -⟩ := decodeSequence_char decoded
  have range := first.toNat_lt
  unfold sequenceHead? at led
  split_ifs at led with one two three four <;> cases led
  · match tail, length with
    | [], _ =>
      have code : first.toNat = c.toNat := Except.ok.inj joined
      obtain ⟨-, bytes⟩ | _ | _ | _ := encodeChar_cases c
      · rw [bytes, byte_eq first (by omega)]
      all_goals omega
  · match tail, length with
    | [b], _ =>
      obtain ⟨second, joined⟩ := joinBits_cons joined
      have code : first.toNat % 32 * 64 + b.toNat % 64 = c.toNat := Except.ok.inj joined
      have least : 0x80 ≤ c.toNat := least
      have := b.toNat_lt
      obtain _ | ⟨-, -, bytes⟩ | _ | _ := encodeChar_cases c
      · omega
      · rw [bytes, byte_eq first (by omega), byte_eq b (by omega)]
      all_goals omega
  · match tail, length with
    | [b, d], _ =>
      obtain ⟨second, joined⟩ := joinBits_cons joined
      obtain ⟨third, joined⟩ := joinBits_cons joined
      have code : (first.toNat % 16 * 64 + b.toNat % 64) * 64 + d.toNat % 64 = c.toNat :=
        Except.ok.inj joined
      have least : 0x800 ≤ c.toNat := least
      have := b.toNat_lt
      have := d.toNat_lt
      obtain _ | _ | ⟨-, -, bytes⟩ | _ := encodeChar_cases c
      · omega
      · omega
      · rw [bytes, byte_eq first (by omega), byte_eq b (by omega), byte_eq d (by omega)]
      · omega
  · match tail, length with
    | [b, d, e], _ =>
      obtain ⟨second, joined⟩ := joinBits_cons joined
      obtain ⟨third, joined⟩ := joinBits_cons joined
      obtain ⟨fourth, joined⟩ := joinBits_cons joined
      have code : ((first.toNat % 8 * 64 + b.toNat % 64) * 64 + d.toNat % 64) * 64 + e.toNat % 64 =
          c.toNat := Except.ok.inj joined
      have least : 0x10000 ≤ c.toNat := least
      have := b.toNat_lt
      have := d.toNat_lt
      have := e.toNat_lt
      obtain _ | _ | _ | ⟨-, -, bytes⟩ := encodeChar_cases c
      · omega
      · omega
      · omega
      · rw [bytes, byte_eq first (by omega), byte_eq b (by omega), byte_eq d (by omega),
          byte_eq e (by omega)]

private theorem sequenceHead?_width {byte : Nat} (led : sequenceHead? byte = some (width, head)) :
    1 ≤ width ∧ width ≤ 4 := by
  unfold sequenceHead? at led
  split_ifs at led <;> cases led <;> omega

theorem readChars_visible {steps room offset : Nat} {shown fresh : List Char} {bytes : List UInt8}
    (visible : '\x00' ∉ shown ∧ '\x00' ∉ fresh) :
    '\x00' ∉ (readChars steps shown fresh room offset bytes).chars := by
  fun_induction readChars steps shown fresh room offset bytes with
  | case1 | case2 | case5 => simpa using visible
  | case3 | case6 => simpa using visible.1
  | case4 steps shown fresh room offset first rest width head led full ih =>
    exact ih ⟨by simpa [and_comm] using visible, List.not_mem_nil⟩
  | case7 steps shown fresh room offset first rest width head led fits short c decoded ih =>
    obtain ⟨-, -, allowed⟩ := decodeSequence_char decoded
    refine ih ⟨visible.1, List.not_mem_cons_of_ne_of_not_mem ?_ visible.2⟩
    rintro rfl
    cases allowed

/-- A source that is not broken has all characters that its bytes stand for. -/
theorem readChars_encode {steps room offset : Nat} {shown fresh : List Char} {bytes : List UInt8}
    (enough : 2 * bytes.length + (if room < 4 then 1 else 0) < steps)
    (whole : (readChars steps shown fresh room offset bytes).broken = none) :
    ∃ more, (readChars steps shown fresh room offset bytes).chars = (fresh ++ shown).reverse ++ more ∧
      bytes = encode more := by
  fun_induction readChars steps shown fresh room offset bytes with
  | case1 => exact absurd enough (Nat.not_lt_zero _)
  | case2 => exact ⟨[], (List.append_nil _).symm, rfl⟩
  | case3 | case5 | case6 => cases whole
  | case4 steps shown fresh room offset first rest width head led full ih =>
    have narrow := sequenceHead?_width led
    obtain ⟨more, chars, bytes⟩ := ih (by rw [if_neg (by decide)]; rw [if_pos (by omega)] at enough; omega) whole
    exact ⟨more, by simpa using chars, bytes⟩
  | case7 steps shown fresh room offset first rest width head led fits short c decoded ih =>
    have narrow := sequenceHead?_width led
    have length : (rest.take (width - 1)).length = width - 1 := by
      have most := List.length_take_le (width - 1) rest
      omega
    have taken := List.length_drop (i := width - 1) (l := rest)
    rw [List.length_cons] at enough
    obtain ⟨more, chars, bytes⟩ := ih (by split <;> omega) whole
    refine ⟨c :: more, by simpa using chars, ?_⟩
    rw [encode, List.flatMap_cons, ← decodeSequence_encode led length decoded, List.cons_append]
    exact congrArg (first :: ·) ((List.take_append_drop _ rest).symm.trans (congrArg _ bytes))

variable {bytes : List UInt8}

theorem ofBytes_visible : '\x00' ∉ (Source.ofBytes bytes).chars :=
  readChars_visible ⟨List.not_mem_nil, List.not_mem_nil⟩

theorem ofBytes_encode (whole : (Source.ofBytes bytes).broken = none) :
    bytes = encode (Source.ofBytes bytes).chars := by
  have enough : 2 * bytes.length + (if chunkSize < 4 then 1 else 0) < 2 * bytes.length + 1 := by
    rw [if_neg (by decide)]
    omega
  obtain ⟨more, chars, same⟩ := readChars_encode enough whole
  rw [Source.ofBytes, chars]
  exact same

end MessagePress.Proofs.SourceTexts
