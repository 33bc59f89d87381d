import Mathlib.Algebra.Group.Nat.Defs
import Mathlib.Data.List.Basic
import MessagePress.Template.Evaluation

/-! What draws take from a random source. A draw that succeeds gives the same from every source
that begins with the bytes it took; one that fails has come to where fewer bytes are left than it
asks for at a time. -/

namespace MessagePress.Proofs.Draws
open MessagePress.Random Template

variable {α β ε : Type} {draw : Draw α} {size bound draws : ℕ} {source left : Source}

/-- The draw takes these bytes and no others, and gives a value that they determine. -/
def Takes (draw : Source → Except ε α × Source) (taken : List UInt8) (value : α) : Prop :=
  ∀ rest, draw ⟨taken ++ rest⟩ = (.ok value, ⟨rest⟩)

/-- A draw that reads a source from the front, so many bytes at a time. -/
structure Requests (size : ℕ) (draw : Draw α) : Prop where
  takes : ∀ {source value left}, draw source = (.ok value, left) →
    ∃ taken, source.bytes = taken ++ left.bytes ∧ Takes draw taken value
  fails : ∀ {source fault left}, draw source = (.error fault, left) →
    (∃ passed, source.bytes = passed ++ left.bytes) ∧ left.bytes.length < size

theorem Requests.none (size : ℕ) (value : α) : Requests size fun source => (.ok value, source) where
  takes := by
    rintro source value left ⟨⟩
    exact ⟨[], rfl, fun rest => rfl⟩
  fails := by rintro source fault left ⟨⟩

theorem Requests.map (requests : Requests size draw) (f : α → β) :
    Requests size fun source => ((draw source).1.map f, (draw source).2) where
  takes := by
    intro source value left drawn
    rcases found : draw source with ⟨fault | inner, after⟩
    · simp [found, Except.map] at drawn
    · simp only [found, Except.map, Prod.mk.injEq, Except.ok.injEq] at drawn
      obtain ⟨rfl, rfl⟩ := drawn
      obtain ⟨taken, same, takes⟩ := requests.takes found
      refine ⟨taken, same, fun rest => ?_⟩
      simp only [takes rest, Except.map]
  fails := by
    intro source fault left drawn
    rcases found : draw source with ⟨cause | inner, after⟩
    · simp only [found, Except.map, Prod.mk.injEq] at drawn
      obtain ⟨-, rfl⟩ := drawn
      exact requests.fails found
    · simp [found, Except.map] at drawn

theorem draw_front {count : ℕ} {bytes : List UInt8} (length : bytes.length = count)
    (rest : List UInt8) : Source.draw count ⟨bytes ++ rest⟩ = (.ok bytes, ⟨rest⟩) := by
  rw [Source.draw, if_pos (by simp [length])]
  simp only [List.take_left' length, List.drop_left' length]

theorem draw_short {count : ℕ} (few : source.bytes.length < count) :
    source.draw count = (.error .exhausted, source) := by
  rw [Source.draw, if_neg (Nat.not_le.mpr few)]

theorem short_or_front (count : ℕ) (source : Source) : source.bytes.length < count ∨
    ∃ bytes rest, bytes.length = count ∧ source = ⟨bytes ++ rest⟩ := by
  rcases Nat.lt_or_ge source.bytes.length count with few | enough
  · exact Or.inl few
  · refine Or.inr ⟨source.bytes.take count, source.bytes.drop count, List.length_take_of_le enough, ?_⟩
    rw [List.take_append_drop]

theorem draw_requests (count : ℕ) : Requests count (Source.draw count) where
  takes := by
    intro source value left drawn
    rcases short_or_front count source with few | ⟨bytes, rest, length, rfl⟩
    · rw [draw_short few] at drawn
      cases drawn
    · rw [draw_front length] at drawn
      cases drawn
      exact ⟨_, rfl, draw_front length⟩
  fails := by
    intro source fault left drawn
    rcases short_or_front count source with few | ⟨bytes, rest, length, rfl⟩
    · rw [draw_short few] at drawn
      cases drawn
      exact ⟨⟨[], rfl⟩, few⟩
    · rw [draw_front length] at drawn
      cases drawn

theorem drawBelow_short (few : source.bytes.length < wordBytes) :
    drawBelow bound draws source = (.error .exhausted, source) := by
  cases draws with
  | zero => rfl
  | succ draws => rw [drawBelow, draw_short few]

theorem drawBelow_word {word : List UInt8} (length : word.length = wordBytes)
    (rest : List UInt8) : drawBelow bound (draws + 1) ⟨word ++ rest⟩ =
      if maskWord bound (wordOfBytes word) < bound then
        (.ok (maskWord bound (wordOfBytes word)), ⟨rest⟩)
      else drawBelow bound draws ⟨rest⟩ := by
  rw [drawBelow, draw_front length]

theorem word_count {word : List UInt8} (length : word.length = wordBytes)
    (rest : List UInt8) : (word ++ rest).length / wordBytes = rest.length / wordBytes + 1 := by
  rw [List.length_append, length, Nat.add_comm, Nat.add_div_right _ (by decide)]

/-- How many words may be drawn makes no difference once there are as many as it takes. -/
theorem drawBelow_takes {value : ℕ} (drawn : drawBelow bound draws source = (.ok value, left)) :
    ∃ taken, source.bytes = taken ++ left.bytes ∧ ∀ more, taken.length / wordBytes ≤ more →
      Takes (drawBelow bound more) taken value := by
  induction draws generalizing source with
  | zero => cases drawn
  | succ draws ih =>
    rcases short_or_front wordBytes source with few | ⟨word, rest, length, rfl⟩
    · rw [drawBelow_short few] at drawn
      cases drawn
    rw [drawBelow_word length] at drawn
    split at drawn
    next accepted =>
      cases drawn
      refine ⟨word, rfl, fun more enough rest => ?_⟩
      rw [length, Nat.div_self (by decide)] at enough
      obtain ⟨more, rfl⟩ := Nat.exists_eq_add_of_le' enough
      rw [drawBelow_word length, if_pos accepted]
    next rejected =>
      obtain ⟨taken, same, takes⟩ := ih drawn
      refine ⟨word ++ taken, by rw [List.append_assoc, ← same], fun more enough rest => ?_⟩
      rw [word_count length] at enough
      obtain ⟨more, rfl⟩ := Nat.exists_eq_add_of_le' (Nat.le_of_add_left_le enough)
      rw [List.append_assoc, drawBelow_word length, if_neg rejected]
      exact takes more (Nat.le_of_succ_le_succ enough) rest

theorem drawBelow_fails {fault : Fault} (enough : source.bytes.length / wordBytes < draws)
    (drawn : drawBelow bound draws source = (.error fault, left)) :
    (∃ passed, source.bytes = passed ++ left.bytes) ∧ left.bytes.length < wordBytes := by
  induction draws generalizing source with
  | zero => exact absurd enough (Nat.not_lt_zero _)
  | succ draws ih =>
    rcases short_or_front wordBytes source with few | ⟨word, rest, length, rfl⟩
    · rw [drawBelow_short few] at drawn
      cases drawn
      exact ⟨⟨[], rfl⟩, few⟩
    rw [drawBelow_word length] at drawn
    rw [word_count length] at enough
    split at drawn
    next => cases drawn
    next rejected =>
      obtain ⟨⟨passed, same⟩, few⟩ := ih (Nat.lt_of_succ_lt_succ enough) drawn
      exact ⟨⟨word ++ passed, by rw [List.append_assoc, ← same]⟩, few⟩

theorem uniformBelow_requests (bound : ℕ) : Requests wordBytes (uniformBelow bound) where
  takes := by
    intro source value left drawn
    unfold uniformBelow at drawn
    split at drawn
    next least =>
      cases drawn
      refine ⟨[], rfl, fun rest => ?_⟩
      rw [uniformBelow, if_pos least]
      rfl
    next above =>
      obtain ⟨taken, same, takes⟩ := drawBelow_takes drawn
      refine ⟨taken, same, fun rest => ?_⟩
      rw [uniformBelow, if_neg above]
      have within : taken.length / wordBytes ≤ (taken ++ rest).length / wordBytes :=
        Nat.div_le_div_right (by simp)
      exact takes _ (Nat.le_succ_of_le within) rest
  fails := by
    intro source fault left drawn
    unfold uniformBelow at drawn
    split at drawn
    next => cases drawn
    next => exact drawBelow_fails (Nat.lt_succ_self _) drawn

theorem digits_none {count : Int} (none : count ≤ 0) : digits count = fun source => (.ok ['0'], source) := by
  funext source
  rw [digits, if_pos none]

theorem digits_some {count : Int} (some : 0 < count) : digits count = fun source =>
    ((uniformBelow (10 ^ (min count 18).toNat) source).1.map (zeroPadded (min count 18).toNat),
      (uniformBelow (10 ^ (min count 18).toNat) source).2) := by
  have width : min count.toNat maxDigits = (min count 18).toNat := by
    unfold maxDigits
    omega
  funext source
  rw [digits, if_neg (Int.not_le.mpr some), width]
  rfl

theorem digits_requests (count : Int) : Requests wordBytes (digits count) := by
  by_cases none : count ≤ 0
  · exact digits_none none ▸ .none wordBytes ['0']
  · exact digits_some (Int.not_le.mp none) ▸ (uniformBelow_requests _).map _

def requested : Call → ℕ
  | .guid | .uuid => 16
  | .now _ => 0
  | .digits _ => wordBytes

theorem evaluateCall_requests (clock : Time.Instant) (call : Call) :
    Requests (requested call) (evaluateCall clock call) := by
  cases call with
  | guid => exact (draw_requests 16).map hyphenated
  | uuid => exact (draw_requests 16).map fun bytes => hyphenated (markVersion4 bytes)
  | now format => exact .none 0 _
  | digits count => exact digits_requests count

end MessagePress.Proofs.Draws
