import Mathlib.Tactic.NormNum
import MessagePress.Proofs.CalendarDays
import MessagePress.Time.Format

/-! Times as counts from the start of 1970. Seconds, milliseconds and nanoseconds are one count
rounded down to three units, also before 1970, where the nanoseconds of a second still count
forward. Over all years that a clock shows, the counts fit in the words that they are computed in. -/

namespace MessagePress.Proofs.EpochCounts
open MessagePress.Time CalendarDays

variable {instant other : Instant}

/-- Instants that a clock can hold: so many years before and after the year zero, and nanoseconds
up to the end of a second that is inserted. -/
structure Representable (instant : Instant) : Prop where
  first : -262143 ≤ instant.date.year
  last : instant.date.year ≤ 262142
  short : instant.nanoseconds < 2 * 10 ^ 9

/-- Instants outside of inserted seconds. -/
def Plain (instant : Instant) : Prop := instant.nanoseconds < 10 ^ 9

/-- Nanoseconds since the start of 1970. -/
def nanosCount (instant : Instant) : Int := instant.seconds * 10 ^ 9 + instant.nanoseconds

/-- An instant comes before another one. -/
def Earlier (instant other : Instant) : Prop :=
  instant.seconds < other.seconds ∨
    instant.seconds = other.seconds ∧ instant.nanoseconds < other.nanoseconds

/-- A number in a signed word of so many bits, if it fits. -/
def signedWord? (bits : Nat) (number : Int) : Option Int :=
  if -2 ^ (bits - 1) ≤ number ∧ number < 2 ^ (bits - 1) then some number else none

/-- Milliseconds, step by step in words of 64 bits. -/
def wordMillis? (instant : Instant) : Option Int := do
  let seconds ← signedWord? 64 instant.seconds
  let whole ← signedWord? 64 (seconds * 1000)
  let part ← signedWord? 64 (instant.nanoseconds / 1000000)
  signedWord? 64 (whole + part)

/-- Nanoseconds, step by step in words of 128 bits. -/
def wordNanos? (instant : Instant) : Option Int := do
  let seconds ← signedWord? 128 instant.seconds
  let whole ← signedWord? 128 (seconds * 1000000000)
  let part ← signedWord? 128 instant.nanoseconds
  signedWord? 128 (whole + part)

theorem Representable.seconds_bounds (representable : Representable instant) :
    -8334601228800 ≤ instant.seconds ∧ instant.seconds ≤ 8210266876799 := by
  obtain ⟨first, last, -⟩ := representable
  obtain ⟨begun, ended⟩ := yearOfDay_bounds (instant.seconds / secondsPerDay + epochDay)
  have year : instant.date.year = yearOfDay (instant.seconds / secondsPerDay + epochDay) := rfl
  rw [← year] at begun ended
  unfold daysBeforeYear secondsPerDay epochDay at *
  dsimp only at begun ended
  constructor <;> omega

theorem signedWord?_eq {bits : Nat} {number : Int} (low : -2 ^ (bits - 1) ≤ number)
    (high : number < 2 ^ (bits - 1)) : signedWord? bits number = some number :=
  if_pos ⟨low, high⟩

theorem wordMillis?_eq (representable : Representable instant) :
    wordMillis? instant = some (Format.millisSinceEpoch instant) := by
  obtain ⟨first, last⟩ := representable.seconds_bounds
  have short := representable.short
  simp only [wordMillis?, Option.bind_eq_bind]
  rw [signedWord?_eq (by omega) (by omega), Option.bind_some,
    signedWord?_eq (by omega) (by omega), Option.bind_some,
    signedWord?_eq (by omega) (by omega), Option.bind_some, signedWord?_eq (by omega) (by omega)]
  rfl

theorem wordNanos?_eq (representable : Representable instant) :
    wordNanos? instant = some (Format.nanosSinceEpoch instant) := by
  obtain ⟨first, last⟩ := representable.seconds_bounds
  have short := representable.short
  simp only [wordNanos?, Option.bind_eq_bind]
  rw [signedWord?_eq (by omega) (by omega), Option.bind_some,
    signedWord?_eq (by omega) (by omega), Option.bind_some,
    signedWord?_eq (by omega) (by omega), Option.bind_some, signedWord?_eq (by omega) (by omega)]
  rfl

theorem millisSinceEpoch_eq (instant : Instant) :
    Format.millisSinceEpoch instant = (nanosCount instant).fdiv (10 ^ 6) := by
  rw [Int.fdiv_eq_ediv_of_nonneg _ (by decide)]
  unfold Format.millisSinceEpoch nanosCount
  omega

theorem Plain.seconds_eq (plain : Plain instant) :
    instant.seconds = (nanosCount instant).fdiv (10 ^ 9) := by
  rw [Int.fdiv_eq_ediv_of_nonneg _ (by decide)]
  unfold Plain at plain
  unfold nanosCount
  omega

theorem Plain.nanosCount_lt (plain : Plain instant) (earlier : Earlier instant other) :
    nanosCount instant < nanosCount other := by
  unfold Plain at plain
  unfold Earlier at earlier
  unfold nanosCount
  omega

theorem decimal_text (value : Int) : String.ofList (Format.decimal value) = toString value := by
  cases value with
  | ofNat count =>
    have unsigned : ¬Int.ofNat count < 0 := Int.not_lt.mpr (Int.natCast_nonneg count)
    simp only [Format.decimal, paddedNumber, unsigned, Bool.false_eq_true, if_false, List.nil_append]
    rfl
  | negSucc count =>
    have negative : Int.negSucc count < 0 := Int.negSucc_lt_zero count
    simp only [Format.decimal, paddedNumber, negative, if_true]
    exact String.ofList_append

/-- The nanoseconds that are shown grow with the time. -/
theorem Plain.texts_grow (plain : Plain instant) (earlier : Earlier instant other) :
    ∃ count later : Int, String.ofList (Format.text .unixNano instant) = toString count ∧
      String.ofList (Format.text .unixNano other) = toString later ∧ count < later :=
  ⟨_, _, decimal_text _, decimal_text _, plain.nanosCount_lt earlier⟩

/-- Seconds, milliseconds and nanoseconds are shown as decimal numbers. Those of the nanoseconds are
the time itself, and the others are theirs rounded down; of the seconds that holds outside of
inserted ones, where later times also have more nanoseconds. No step of the computation leaves its
words. -/
theorem epoch_counts (representable : Representable instant) :
    String.ofList (Format.text .unix instant) = toString instant.seconds ∧
    String.ofList (Format.text .unixNano instant) = toString (nanosCount instant) ∧
    String.ofList (Format.text .unixMilli instant) = toString ((nanosCount instant).fdiv (10 ^ 6)) ∧
    signedWord? 64 instant.seconds = some instant.seconds ∧
    wordNanos? instant = some (nanosCount instant) ∧
    wordMillis? instant = some ((nanosCount instant).fdiv (10 ^ 6)) ∧
    (Plain instant →
      String.ofList (Format.text .unix instant) = toString ((nanosCount instant).fdiv (10 ^ 9)) ∧
      ∀ other, Plain other → Earlier instant other →
        ∃ count later : Int, String.ofList (Format.text .unixNano instant) = toString count ∧
          String.ofList (Format.text .unixNano other) = toString later ∧ count < later) := by
  have seconds := representable.seconds_bounds
  refine ⟨decimal_text _, decimal_text _, ?_, signedWord?_eq (by omega) (by omega), wordNanos?_eq representable, ?_,
    fun plain => ⟨?_, fun other _ => plain.texts_grow⟩⟩
  · rw [← millisSinceEpoch_eq]
    exact decimal_text _
  · rw [← millisSinceEpoch_eq]
    exact wordMillis?_eq representable
  · rw [← plain.seconds_eq]
    exact decimal_text _

/-- The last nanosecond before 1970 belongs to the millisecond and the second before it. -/
theorem epoch_counts_before : Representable ⟨-1, 999999999⟩ ∧ Plain ⟨-1, 999999999⟩ ∧
    nanosCount ⟨-1, 999999999⟩ = -1 ∧ String.ofList (Format.text .unixNano ⟨-1, 999999999⟩) = "-1" ∧
    String.ofList (Format.text .unixMilli ⟨-1, 999999999⟩) = "-1" ∧
    String.ofList (Format.text .unix ⟨-1, 999999999⟩) = "-1" ∧
    ∃ count later : Int, String.ofList (Format.text .unixNano ⟨-1, 999999999⟩) = toString count ∧
      String.ofList (Format.text .unixNano ⟨0, 0⟩) = toString later ∧ count < later := by
  have representable : Representable ⟨-1, 999999999⟩ := ⟨by decide, by decide, by decide⟩
  have plain : Plain ⟨-1, 999999999⟩ := by unfold Plain; decide
  obtain ⟨-, nanos, millis, -, -, -, outside⟩ := epoch_counts representable
  obtain ⟨seconds, grow⟩ := outside plain
  exact ⟨representable, plain, rfl, nanos, millis, seconds, grow ⟨0, 0⟩ (by unfold Plain; decide) (Or.inl (by decide))⟩

/-- In words of 64 bits the nanoseconds would run out in the year 2262. -/
example : signedWord? 64 (nanosCount ⟨9223372037, 0⟩) = none := by decide

end MessagePress.Proofs.EpochCounts
