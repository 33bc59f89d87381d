import Mathlib.Tactic.NormNum
import MessagePress.Proofs.CalendarDays

/-! Days of the Gregorian calendar, counted from the start of 1970 by its rules: the days of years and
months that lie between are added up. The dates made of days by a formula are these. -/

namespace MessagePress.Proofs.GregorianDays
open MessagePress.Time CalendarDays

/-- Every fourth year is a leap year, but of the full centuries only every fourth. -/
def Leap (year : Int) : Prop := year % 4 = 0 ∧ (year % 100 = 0 → year % 400 = 0)

instance : DecidablePred Leap := fun _ => inferInstanceAs (Decidable (_ ∧ _))

def daysOfYear (year : Int) : Int := if Leap year then 366 else 365

def daysOfMonth (year : Int) (month : Nat) : Nat :=
  if month = 2 then if Leap year then 29 else 28
  else if month = 4 ∨ month = 6 ∨ month = 9 ∨ month = 11 then 30
  else 31

/-- Days from the start of 1970 to the start of a year, and back for the years before. -/
def daysToYear (year : Int) : Int :=
  ((List.range (year - 1970).toNat).map fun passed : Nat => daysOfYear (1970 + passed)).sum -
    ((List.range (1970 - year).toNat).map fun left : Nat => daysOfYear (1969 - left)).sum

/-- Days from the start of a year to the start of one of its months. -/
def daysToMonth (year : Int) (month : Nat) : Nat :=
  ((List.range (month - 1)).map fun passed => daysOfMonth year (passed + 1)).sum

/-- Days from the first of January 1970 to a date. -/
def daysToDate (year : Int) (month day : Nat) : Int :=
  daysToYear year + daysToMonth year month + day - 1

/-- A month and a day that a year has. -/
structure IsDate (year : Int) (month day : Nat) : Prop where
  month_pos : 1 ≤ month
  month_le : month ≤ 12
  day_pos : 1 ≤ day
  day_le : day ≤ daysOfMonth year month

instance (year : Int) (month day : Nat) : Decidable (IsDate year month day) :=
  decidable_of_iff (1 ≤ month ∧ month ≤ 12 ∧ 1 ≤ day ∧ day ≤ daysOfMonth year month)
    ⟨fun ⟨first, last, low, high⟩ => ⟨first, last, low, high⟩, fun ⟨first, last, low, high⟩ => ⟨first, last, low, high⟩⟩

/-- The weekday of a day counted from the start of 1970, which was a Thursday; Monday is the first. -/
def weekdayOf (days : Int) : Int := (days + 3) % 7 + 1

variable {year day : Int} {month passed : Nat} {lengths : List Nat}

theorem leap_iff (year : Int) : Leap year ↔ isLeapYear year = true := by
  simp only [Leap, isLeapYear, Bool.and_eq_true, Bool.or_eq_true, beq_iff_eq, bne_iff_ne]
  omega

theorem daysOfYear_eq (year : Int) : daysOfYear year = yearLength year := by
  simp only [daysOfYear, yearLength, leap_iff]
  split <;> rfl

theorem sum_later (start : Int) (count : Nat) :
    ((List.range count).map fun passed : Nat => daysOfYear (start + passed)).sum =
      daysBeforeYear (start + count) - daysBeforeYear start := by
  induction count with
  | zero => simp
  | succ count ih =>
    have next := daysBeforeYear_succ (start + count)
    have behind : start + ((count + 1 : Nat) : Int) = start + count + 1 := by omega
    rw [List.range_succ, List.map_append, List.sum_append, ih, behind, next]
    simp only [List.map_cons, List.map_nil, List.sum_cons, List.sum_nil, daysOfYear_eq]
    omega

theorem sum_earlier (start : Int) (count : Nat) :
    ((List.range count).map fun left : Nat => daysOfYear (start - 1 - left)).sum =
      daysBeforeYear start - daysBeforeYear (start - count) := by
  induction count with
  | zero => simp
  | succ count ih =>
    have next := daysBeforeYear_succ (start - 1 - count)
    have same : start - 1 - (count : Int) + 1 = start - count := by omega
    have front : start - ((count + 1 : Nat) : Int) = start - 1 - count := by omega
    rw [same] at next
    rw [List.range_succ, List.map_append, List.sum_append, ih, front]
    simp only [List.map_cons, List.map_nil, List.sum_cons, List.sum_nil, daysOfYear_eq]
    omega

theorem daysToYear_eq (year : Int) : daysToYear year = daysBeforeYear year - epochDay := by
  have epoch : daysBeforeYear 1970 = epochDay := rfl
  have later := sum_later 1970 (year - 1970).toNat
  have earlier := sum_earlier 1970 (1970 - year).toNat
  rw [daysToYear, later, ← epoch]
  rcases Int.le_total 1970 year with after | before
  · have none : (1970 - year).toNat = 0 := by omega
    have reached : 1970 + ((year - 1970).toNat : Int) = year := by omega
    rw [none, reached]
    simp
  · have none : (year - 1970).toNat = 0 := by omega
    have reached : 1970 - ((1970 - year).toNat : Int) = year := by omega
    have same : (1970 : Int) - 1 = 1969 := rfl
    rw [same, reached] at earlier
    rw [earlier, none, Int.natCast_zero, Int.add_zero]
    omega

theorem monthLengths_eq (year : Int) :
    monthLengths year = (List.range 12).map fun passed => daysOfMonth year (passed + 1) := by
  have leap : isLeapYear year = true ↔ Leap year := (leap_iff year).symm
  unfold monthLengths
  simp only [leap]
  rfl

theorem total_eq (lengths : List Nat) : total lengths = lengths.sum := by
  induction lengths with
  | nil => rfl
  | cons length lengths ih => rw [total_cons, List.sum_cons, ih]

theorem daysToMonth_eq (year : Int) (last : month ≤ 12) :
    daysToMonth year month = total ((monthLengths year).take (month - 1)) := by
  have fewer : min (month - 1) 12 = month - 1 := by omega
  rw [monthLengths_eq, ← List.map_take, List.take_range, fewer, total_eq]
  rfl

theorem monthAndDay_day (left : passed < total lengths) :
    1 ≤ (monthAndDay lengths passed).2 ∧
      (monthAndDay lengths passed).2 ≤ lengths.getD ((monthAndDay lengths passed).1 - 1) 0 := by
  induction lengths generalizing passed with
  | nil => exact absurd left (Nat.not_lt_zero _)
  | cons length lengths ih =>
    rw [total_cons] at left
    rw [monthAndDay]
    split
    next today => exact ⟨Nat.le_add_left 1 _, today⟩
    next later =>
      have first := (monthAndDay_passed lengths (passed - length)).1
      obtain ⟨low, high⟩ := ih (by omega : passed - length < total lengths)
      dsimp only
      generalize monthAndDay lengths (passed - length) = found at *
      obtain ⟨before, known⟩ := Nat.exists_eq_add_of_le first
      refine ⟨low, ?_⟩
      rw [Nat.add_sub_cancel, known, Nat.add_comm 1 before, List.getD_cons_succ]
      rwa [known, Nat.add_sub_cancel_left] at high

theorem daysToDate_eq (year : Int) (last : month ≤ 12) (day : Nat) :
    daysToDate year month day = dayOfDate year month day - epochDay := by
  rw [daysToDate, daysToYear_eq, daysToMonth_eq year last, dayOfDate, total]
  omega

theorem ofDay_isDate (day : Int) :
    IsDate (Date.ofDay day).year (Date.ofDay day).month (Date.ofDay day).dayOfMonth := by
  have inside := ofDay_inCalendar day
  have left := dayOfYear_lt day
  rw [← total_monthLengths] at left
  obtain ⟨low, high⟩ := monthAndDay_day left
  refine ⟨inside.month_pos, inside.month_le, low, ?_⟩
  have found : (monthLengths (Date.ofDay day).year).getD ((Date.ofDay day).month - 1) 0 =
      daysOfMonth (Date.ofDay day).year (Date.ofDay day).month := by
    obtain ⟨before, known⟩ := Nat.exists_eq_add_of_le inside.month_pos
    have within : before < 12 := by have last := inside.month_le; omega
    rw [monthLengths_eq, known, Nat.add_sub_cancel_left, Nat.add_comm 1 before]
    simp [within]
  exact found ▸ high

/-- The date of a day is as many days from the start of 1970 as the day. -/
theorem daysToDate_ofDay (day : Int) :
    daysToDate (Date.ofDay day).year (Date.ofDay day).month (Date.ofDay day).dayOfMonth = day - epochDay := by
  rw [daysToDate_eq _ (ofDay_inCalendar day).month_le, dayOfDate_ofDay]

end MessagePress.Proofs.GregorianDays
