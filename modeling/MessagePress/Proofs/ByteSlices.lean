import MessagePress.Proofs.ReaderSteps
import MessagePress.Proofs.RenderOutcomes

/-! Texts cut at their bytes. A slice is there if and only if it lies between places where a character
begins or the text ends, and then it is the part of the text between them. -/

namespace MessagePress.Proofs.ByteSlices
open Template
open Text.Utf8 (encode decode? continuation?)
open Utf8Coding (encodeChar_cases decode?_encode)
open RenderOutcomes (byteLength_append byteLength_encode)
open ReaderSteps (encode_append)

variable {text part : List Char} {place start stop : ℕ}

/-- A character begins at the byte, or the text ends there. -/
def isBoundary (text : List Char) (place : ℕ) : Bool :=
  match (encode text)[place]? with
  | some byte => (continuation? byte).isNone
  | none => place == (encode text).length

/-- The part of a text between two of its bytes. There is none if they are in the wrong order, if
one of them is beyond the end, or if one is inside a character. -/
def slice? (text : List Char) (start stop : ℕ) : Option (List Char) :=
  if start ≤ stop ∧ isBoundary text start ∧ isBoundary text stop then
    decode? (((encode text).drop start).take (stop - start))
  else none

def sliceFrom? (text : List Char) (start : ℕ) : Option (List Char) :=
  slice? text start (byteLength text)

theorem encodeChar_lead (c : Char) : ∃ lead later, String.utf8EncodeChar c = lead :: later ∧
    continuation? lead = none ∧ ∀ byte ∈ later, (continuation? byte).isSome := by
  have lead {n : ℕ} (apart : n % 256 / 64 ≠ 2) : continuation? (UInt8.ofNat n) = none := by
    rw [continuation?, UInt8.toNat_ofNat', if_neg apart]
  have later (n : ℕ) : (continuation? (UInt8.ofNat (n % 64 + 128))).isSome := by
    rw [continuation?, UInt8.toNat_ofNat', if_pos (by omega)]
    rfl
  obtain ⟨one, bytes⟩ | ⟨least, most, bytes⟩ | ⟨least, most, bytes⟩ | ⟨least, most, bytes⟩ :=
    encodeChar_cases c
  all_goals
    refine ⟨_, _, bytes, lead (by omega), ?_⟩
    simp only [List.forall_mem_cons, List.not_mem_nil, false_imp_iff, implies_true, later, and_self]

theorem boundary_outside {c : Char} (boundary : isBoundary (c :: text) (place + 1)) :
    c.utf8Size ≤ place + 1 := by
  obtain ⟨lead, later, bytes, -, continues⟩ := encodeChar_lead c
  have size : c.utf8Size = later.length + 1 := by
    rw [← String.length_utf8EncodeChar, bytes, List.length_cons]
  by_contra inside
  have inside : place < later.length := by omega
  have byte : (encode (c :: text))[place + 1]? = some later[place] := by
    rw [encode, List.flatMap_cons, bytes, List.getElem?_append_left (by simpa using inside),
      List.getElem?_cons_succ, List.getElem?_eq_getElem inside]
  rw [isBoundary, byte] at boundary
  have some := continues _ (List.getElem_mem inside)
  rw [Option.isNone_iff_eq_none.mp boundary] at some
  cases some

theorem boundary_behind {c : Char} : isBoundary (c :: text) (c.utf8Size + place) = isBoundary text place := by
  have bytes : encode (c :: text) = String.utf8EncodeChar c ++ encode text := List.flatMap_cons
  have byte : (encode (c :: text))[c.utf8Size + place]? = (encode text)[place]? := by
    rw [bytes, ← String.length_utf8EncodeChar, List.getElem?_append_right (Nat.le_add_right ..),
      Nat.add_sub_cancel_left]
  have length : (encode (c :: text)).length = c.utf8Size + (encode text).length := by
    rw [bytes, List.length_append, String.length_utf8EncodeChar]
  rw [isBoundary, isBoundary, byte, length]
  cases (encode text)[place]? with
  | none => simp
  | some byte => rfl

theorem boundary_iff :
    isBoundary text place ↔ ∃ before after, text = before ++ after ∧ byteLength before = place := by
  constructor
  · intro boundary
    induction text generalizing place with
    | nil =>
      rw [isBoundary, encode, List.flatMap_nil, List.getElem?_nil, beq_iff_eq] at boundary
      exact ⟨[], [], rfl, boundary.symm⟩
    | cons c text ih =>
      cases place with
      | zero => exact ⟨[], c :: text, rfl, rfl⟩
      | succ place =>
        obtain ⟨gap, same⟩ := Nat.exists_eq_add_of_le (boundary_outside boundary)
        rw [same, boundary_behind] at boundary
        obtain ⟨before, after, rfl, rfl⟩ := ih boundary
        exact ⟨c :: before, after, rfl, same.symm⟩
  · rintro ⟨before, after, rfl, rfl⟩
    cases after with
    | nil =>
      rw [List.append_nil, isBoundary, byteLength_encode, List.getElem?_eq_none (Nat.le_refl _)]
      exact beq_self_eq_true _
    | cons c after =>
      obtain ⟨lead, later, bytes, begins, -⟩ := encodeChar_lead c
      have byte : (encode (before ++ c :: after))[byteLength before]? = some lead := by
        rw [encode_append, byteLength_encode, List.getElem?_append_right (Nat.le_refl _),
          Nat.sub_self, encode, List.flatMap_cons, bytes]
        rfl
      rw [isBoundary, byte]
      exact Option.isNone_iff_eq_none.mpr begins

theorem slice?_eq_some : slice? text start stop = some part ↔
    ∃ before after, text = before ++ (part ++ after) ∧ byteLength before = start ∧
      start + byteLength part = stop := by
  have there (before part after : List Char) : slice? (before ++ (part ++ after)) (byteLength before)
      (byteLength before + byteLength part) = some part := by
    have starts : isBoundary (before ++ (part ++ after)) (byteLength before) :=
      boundary_iff.mpr ⟨before, _, rfl, rfl⟩
    have stops : isBoundary (before ++ (part ++ after)) (byteLength before + byteLength part) :=
      boundary_iff.mpr ⟨before ++ part, after, by rw [List.append_assoc], byteLength_append ..⟩
    rw [slice?, if_pos ⟨Nat.le_add_right .., starts, stops⟩, Nat.add_sub_cancel_left, encode_append,
      encode_append, byteLength_encode, byteLength_encode, List.drop_left, List.take_left,
      decode?_encode]
  constructor
  · intro sliced
    have bounds : start ≤ stop ∧ isBoundary text start ∧ isBoundary text stop := by
      by_contra unbounded
      rw [slice?, if_neg unbounded] at sliced
      cases sliced
    obtain ⟨order, starts, stops⟩ := bounds
    obtain ⟨before, rest, rfl, rfl⟩ := boundary_iff.mp starts
    obtain ⟨front, after, same, rfl⟩ := boundary_iff.mp stops
    rcases List.append_eq_append_iff.mp same with ⟨inner, rfl, rfl⟩ | ⟨inner, rfl, rfl⟩
    · rw [byteLength_append, there] at sliced
      cases sliced
      exact ⟨before, after, rfl, rfl, (byteLength_append ..).symm⟩
    · have empty : inner = [] := by
        rw [byteLength_append] at order
        cases inner with
        | nil => rfl
        | cons c inner =>
          have size := c.utf8Size_pos
          rw [byteLength] at order
          omega
      subst empty
      have sliced' := there front [] rest
      rw [byteLength, Nat.add_zero] at sliced'
      rw [List.append_nil] at sliced ⊢
      rw [List.nil_append] at sliced'
      cases sliced'.symm.trans sliced
      exact ⟨front, rest, rfl, rfl, Nat.add_zero _⟩
  · rintro ⟨before, after, rfl, rfl, rfl⟩
    exact there before part after

theorem sliceFrom?_append (before after : List Char) :
    sliceFrom? (before ++ after) (byteLength before) = some after :=
  slice?_eq_some.mpr ⟨before, [], by rw [List.append_nil], rfl, (byteLength_append ..).symm⟩

theorem sliceTo?_append (part after : List Char) :
    slice? (part ++ after) 0 (byteLength part) = some part :=
  slice?_eq_some.mpr ⟨[], after, rfl, rfl, Nat.zero_add _⟩

theorem byteLength_pos (c : Char) (text : List Char) : 0 < byteLength (c :: text) := by
  have size := c.utf8Size_pos
  rw [byteLength]
  omega

theorem skip_append (before rest : List Char) :
    slice.skip (byteLength before) (before ++ rest) = rest := by
  induction before with
  | nil => cases rest <;> rfl
  | cons c before ih =>
    obtain ⟨count, more⟩ := Nat.exists_eq_add_one.mpr (byteLength_pos c before)
    rw [more, List.cons_append, slice.skip, ← more, byteLength, Nat.add_sub_cancel_left, ih]
    exact Nat.succ_ne_zero count

theorem keep_append (part after : List Char) :
    slice.keep (byteLength part) (part ++ after) = part := by
  induction part with
  | nil => cases after <;> rfl
  | cons c part ih =>
    obtain ⟨count, more⟩ := Nat.exists_eq_add_one.mpr (byteLength_pos c part)
    rw [more, List.cons_append, slice.keep, ← more, byteLength, Nat.add_sub_cancel_left, ih]
    exact Nat.succ_ne_zero count

/-- Where the slice is there, it is the part that is shown without looking for boundaries. -/
theorem slice_eq {text : String} (sliced : slice? text.toList start stop = some part) :
    slice text start stop = String.ofList part := by
  obtain ⟨before, after, whole, rfl, rfl⟩ := slice?_eq_some.mp sliced
  rw [slice, whole, Nat.add_sub_cancel_left, skip_append, keep_append]

end MessagePress.Proofs.ByteSlices
