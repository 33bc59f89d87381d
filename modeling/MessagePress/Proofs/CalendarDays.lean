import Mathlib.Tactic.SplitIfs
import MessagePress.Time.Calendar

/-! Dates and days. Every day belongs to one year, and the date that is made of a day leads back to
it: nothing is lost between the two. -/

namespace MessagePress.Proofs.CalendarDays
open MessagePress.Time

variable {year day : Int} {length : Nat}

def yearLength (year : Int) : Nat := if isLeapYear year then 366 else 365

theorem daysBeforeYear_succ (year : Int) : daysBeforeYear (year + 1) = daysBeforeYear year + yearLength year := by
  have leap : isLeapYear year = true ↔ year % 4 = 0 ∧ (year % 100 ≠ 0 ∨ year % 400 = 0) := by
    simp [isLeapYear]
  unfold daysBeforeYear yearLength
  dsimp only
  split
  next holds =>
    have rule := leap.mp holds
    omega
  next fails =>
    have rule := mt leap.mpr fails
    omega

theorem yearOfDay_bounds (day : Int) :
    daysBeforeYear (yearOfDay day) ≤ day ∧ day < daysBeforeYear (yearOfDay day + 1) := by
  unfold yearOfDay
  dsimp only
  split_ifs with early late
  · unfold daysBeforeYear at *
    dsimp only at *
    constructor <;> omega
  · unfold daysBeforeYear at *
    dsimp only at *
    constructor <;> omega
  · omega

theorem dayOfYear_lt (day : Int) : (day - daysBeforeYear (yearOfDay day)).toNat < yearLength (yearOfDay day) := by
  obtain ⟨begun, ended⟩ := yearOfDay_bounds day
  rw [daysBeforeYear_succ] at ended
  omega

def total (lengths : List Nat) : Nat := lengths.foldl Nat.add 0

@[simp] theorem total_nil : total [] = 0 := rfl

@[simp] theorem total_cons (length : Nat) (lengths : List Nat) :
    total (length :: lengths) = length + total lengths := by
  have from_any (lengths : List Nat) : ∀ start, lengths.foldl Nat.add start = start + total lengths := by
    induction lengths with
    | nil => exact fun start => rfl
    | cons next lengths ih =>
      intro start
      rw [total, List.foldl_cons, List.foldl_cons, ih, ih]
      exact (Nat.add_assoc start next _).trans (congrArg (start + ·) (by rw [Nat.add_eq, Nat.zero_add]))
  rw [total, List.foldl_cons, from_any, Nat.add_eq, Nat.zero_add]

theorem total_monthLengths (year : Int) : total (monthLengths year) = yearLength year := by
  unfold monthLengths yearLength
  split <;> rfl

/-- Months before the one that was found, and its days up to the one that was found, are the days
that have passed. -/
theorem monthAndDay_passed (lengths : List Nat) (passed : Nat) :
    1 ≤ (monthAndDay lengths passed).1 ∧
      total (lengths.take ((monthAndDay lengths passed).1 - 1)) + (monthAndDay lengths passed).2 = passed + 1 := by
  induction lengths generalizing passed with
  | nil => simp [monthAndDay]
  | cons length lengths ih =>
    rw [monthAndDay]
    split
    · simp
    next later =>
      obtain ⟨first, same⟩ := ih (passed - length)
      dsimp only
      generalize monthAndDay lengths (passed - length) = found at *
      refine ⟨Nat.le_add_left 1 _, ?_⟩
      rw [Nat.add_sub_cancel]
      obtain ⟨before, known⟩ := Nat.exists_eq_add_of_le first
      rw [known, Nat.add_comm 1 before, List.take_succ_cons, total_cons]
      rw [known, Nat.add_sub_cancel_left] at same
      omega

theorem monthAndDay_bounds {lengths : List Nat} {passed : Nat} (left : passed < total lengths) {most : Nat}
    (short : ∀ length ∈ lengths, length ≤ most) :
    (monthAndDay lengths passed).1 ≤ lengths.length ∧ (monthAndDay lengths passed).2 ≤ most := by
  induction lengths generalizing passed with
  | nil => exact absurd left (Nat.not_lt_zero _)
  | cons length lengths ih =>
    obtain ⟨here, short⟩ := List.forall_mem_cons.mp short
    rw [total_cons] at left
    rw [monthAndDay]
    split
    next today => exact ⟨Nat.le_add_left 1 _, Nat.le_trans today here⟩
    next later =>
      have left : passed - length < total lengths := by omega
      obtain ⟨months, days⟩ := ih left short
      exact ⟨Nat.succ_le_succ months, days⟩

/-- A date whose parts are those of some month and some week. -/
structure InCalendar (date : Date) : Prop where
  month_pos : 1 ≤ date.month
  month_le : date.month ≤ 12
  dayOfMonth_le : date.dayOfMonth ≤ 31
  weekday_lt : date.weekday < 7

theorem ofDay_inCalendar (day : Int) : InCalendar (Date.ofDay day) := by
  have left := dayOfYear_lt day
  rw [← total_monthLengths] at left
  have short : ∀ length ∈ monthLengths (yearOfDay day), length ≤ 31 := by
    unfold monthLengths
    split <;> decide
  obtain ⟨months, days⟩ := monthAndDay_bounds left short
  have first := (monthAndDay_passed (monthLengths (yearOfDay day)) (day - daysBeforeYear (yearOfDay day)).toNat).1
  exact ⟨first, months, days, by simp only [Date.ofDay]; omega⟩

theorem dayOfDate_ofDay (day : Int) :
    dayOfDate (Date.ofDay day).year (Date.ofDay day).month (Date.ofDay day).dayOfMonth = day := by
  have begun := (yearOfDay_bounds day).1
  have passed := (monthAndDay_passed (monthLengths (yearOfDay day)) (day - daysBeforeYear (yearOfDay day)).toNat).2
  unfold total at passed
  rw [dayOfDate]
  simp only [Date.ofDay]
  omega

end MessagePress.Proofs.CalendarDays
