import MessagePress.Json.Reader
import MessagePress.Proofs.ShortestDigits

/-! Shortest decimals of finite numbers stay in range when they are read. Reading rounds the
digits, a power of ten and their product, so a decimal close to the greatest number could end
above it. The few powers of ten that come this close are checked one by one. -/

namespace MessagePress.Proofs.NumberRange
open Binary64 Rounding ShortestDigits
open Json (powerOfTen scaleByTen? realOfParts?)

/-- The midpoint above the greatest number, from which on there is no number to round to. -/
def bound : ℕ := (2 ^ 54 - 1) * 2 ^ 970

/-- The midpoint below the greatest number. -/
def lastMidpoint : ℕ := (2 ^ 54 - 3) * 2 ^ 970

private theorem bound_eq : (bound : ℚ) = (2 ^ 53 - 1 + 1 / 2) * 2 ^ (971 : ℤ) := by
  have double : (2 : ℚ) ^ (971 : ℤ) = 2 * 2 ^ 970 := by
    rw [show (971 : ℤ) = (970 + 1 : ℕ) by norm_num, zpow_natCast, pow_succ, mul_comm]
  rw [double, bound, Nat.cast_mul, Nat.cast_pow, Nat.cast_ofNat]
  generalize (2 : ℚ) ^ 970 = scale
  push_cast
  ring

theorem magnitude_pos (x : Binary64) : 0 < x.magnitude.2 := by
  unfold magnitude
  split
  · exact one_pos
  · exact Nat.pow_pos two_pos

theorem magnitude_ratio (x : Binary64) :
    (x.magnitude.1 : ℚ) / x.magnitude.2 = size x := by
  unfold magnitude size
  split
  next nonneg =>
    push_cast [cast_pow_toNat 2 nonneg]
    rw [div_one]
  next negative =>
    push_cast [cast_pow_toNat 2 (show 0 ≤ -x.exponent by omega)]
    rw [zpow_neg, div_inv_eq_mul]

private theorem greatest_bound {numerator denominator : ℕ} (positive : 0 < denominator)
    (negative : Bool) (below : (numerator : ℚ) / denominator < bound) :
    ∃ result, ofQuotient? negative numerator denominator = some result := by
  obtain ⟨result, found, -⟩ := @ofQuotient?_le negative numerator denominator positive
    (2 ^ 53 - 1) 971 (by norm_num) (by norm_num) (by decide) (by decide)
    (below.trans_eq (by rw [bound_eq]; norm_num))
  exact ⟨result, found⟩

theorem mul?_eq (x y : Binary64) : x.mul? y = ofQuotient? (x.negative != y.negative)
    (x.magnitude.1 * y.magnitude.1) (x.magnitude.2 * y.magnitude.2) := rfl

theorem div?_eq (x y : Binary64) : x.div? y = ofQuotient? (x.negative != y.negative)
    (x.magnitude.1 * y.magnitude.2) (x.magnitude.2 * y.magnitude.1) := rfl

theorem mul?_some {x y : Binary64} (below : size x * size y < bound) :
    ∃ result, x.mul? y = some result := by
  rw [mul?_eq]
  refine greatest_bound (Nat.mul_pos (magnitude_pos x) (magnitude_pos y)) _ ?_
  push_cast
  rwa [mul_div_mul_comm, magnitude_ratio, magnitude_ratio]

theorem magnitude_top {x : Binary64} (whole : 1 ≤ size x) : 0 < x.magnitude.1 := by
  by_contra none
  have ratio := magnitude_ratio x
  rw [Nat.eq_zero_of_not_pos none, Nat.cast_zero, zero_div] at ratio
  linarith

private theorem powers_checked : ∀ power < 309,
    (powerOfTen power).magnitude.2 ≤ (powerOfTen power).magnitude.1 ∧
      2 * (powerOfTen power).magnitude.1 ≤
        3 * 10 ^ power * (powerOfTen power).magnitude.2 := by decide +kernel

theorem powerOfTen_bounds {power : ℕ} (small : power < 309) :
    1 ≤ size (powerOfTen power) ∧ size (powerOfTen power) ≤ 3 / 2 * 10 ^ power := by
  obtain ⟨least, most⟩ := powers_checked power small
  have positive : (0 : ℚ) < (powerOfTen power).magnitude.2 := by
    exact_mod_cast magnitude_pos (powerOfTen power)
  rw [← magnitude_ratio, one_le_div positive, div_le_iff₀ positive]
  have most : (2 : ℚ) * (powerOfTen power).magnitude.1 ≤
      3 * 10 ^ power * (powerOfTen power).magnitude.2 := by exact_mod_cast most
  exact ⟨by exact_mod_cast least, by linarith⟩

theorem powerOfTen_pos {power : ℕ} (small : power < 309) : 0 < (powerOfTen power).magnitude.1 :=
  magnitude_top (powerOfTen_bounds small).1

/-- Whether the product of a power of ten with any number of digits up to the given one, all
of them rounded, stays below the bound. -/
def leavesRoom (most power : ℕ) : Bool :=
  (ofQuotient? false most 1).any fun x =>
    let limit := magnitude ⟨false, 2 * x.significand + 1, x.exponent⟩
    let y := powerOfTen power
    Nat.pow 2 52 ≤ x.significand && 2 * most * limit.2 < limit.1 &&
      x.magnitude.1 * y.magnitude.1 < bound * (x.magnitude.2 * y.magnitude.2)

theorem mul?_of_leavesRoom {most power digits : ℕ} (room : leavesRoom most power = true)
    (within : digits ≤ most) :
    ∃ x y, ofQuotient? false digits 1 = some x ∧ x.mul? (powerOfTen power) = some y := by
  unfold leavesRoom at room
  obtain ⟨greatest, rounded⟩ : ∃ greatest, ofQuotient? false most 1 = some greatest := by
    cases found : ofQuotient? false most 1 with
    | none => rw [found] at room; cases room
    | some greatest => exact ⟨greatest, rfl⟩
  rw [rounded, Option.any_some] at room
  simp only [Bool.and_eq_true, decide_eq_true_eq] at room
  obtain ⟨⟨normal, limit⟩, product⟩ := room
  have finite := finite_of_ofQuotient? one_pos rounded
  have half := magnitude_ratio ⟨false, 2 * greatest.significand + 1, greatest.exponent⟩
  have half_pos := magnitude_pos ⟨false, 2 * greatest.significand + 1, greatest.exponent⟩
  generalize magnitude ⟨false, 2 * greatest.significand + 1, greatest.exponent⟩ = limits at *
  have below : (digits : ℚ) / (1 : ℕ) < (greatest.significand + 1 / 2) * 2 ^ greatest.exponent := by
    have positive : (0 : ℚ) < limits.2 := by exact_mod_cast half_pos
    have limit : (2 : ℚ) * most < size ⟨false, 2 * greatest.significand + 1, greatest.exponent⟩ := by
      rw [← half, lt_div_iff₀ positive]
      exact_mod_cast limit
    have within : (digits : ℚ) ≤ most := by exact_mod_cast within
    simp only [size] at limit
    push_cast at limit ⊢
    linarith
  obtain ⟨x, found, size_le⟩ := @ofQuotient?_le false digits 1 one_pos _ _ normal
    finite.significand finite.least finite.greatest below
  have room : size x * size (powerOfTen power) < bound := by
    refine (mul_le_mul_of_nonneg_right size_le (size_nonneg _)).trans_lt ?_
    change size greatest * _ < _
    rw [← magnitude_ratio, ← magnitude_ratio, ← mul_div_mul_comm, div_lt_iff₀]
    · exact_mod_cast product
    · exact_mod_cast Nat.mul_pos (magnitude_pos _) (magnitude_pos _)
  obtain ⟨y, times⟩ := mul?_some room
  exact ⟨x, y, found, times⟩

/-- Every power of ten near the top leaves room for the digits that a number below the
greatest one can have in front of it. -/
private theorem room_checked : ∀ step < 20,
    leavesRoom (lastMidpoint / 10 ^ (289 + step)) (289 + step) = true := by
  decide +kernel

private theorem ofQuotient?_word {numerator denominator : ℕ} (negative : Bool)
    (positive : 0 < denominator) (small : (numerator : ℚ) / denominator ≤ 2 ^ 64) :
    ∃ x, ofQuotient? negative numerator denominator = some x ∧ size x ≤ 2 ^ 64 := by
  obtain ⟨x, found, size_le⟩ := @ofQuotient?_le negative numerator denominator positive
    (2 ^ 52) 12 (by norm_num) (by norm_num) (by decide) (by decide)
    (small.trans_lt (by norm_num))
  exact ⟨x, found, size_le.trans (by norm_num)⟩

private theorem div?_word {x y : Binary64} (whole : 1 ≤ size y) (small : size x ≤ 2 ^ 64) :
    ∃ z, x.div? y = some z ∧ size z ≤ 2 ^ 64 := by
  have top := magnitude_top whole
  rw [div?_eq]
  refine ofQuotient?_word _ (Nat.mul_pos (magnitude_pos x) top) ?_
  push_cast
  rw [mul_div_mul_comm, magnitude_ratio, ← inv_div, magnitude_ratio]
  have smaller : size x * (size y)⁻¹ ≤ size x :=
    mul_le_of_le_one_right (size_nonneg x) (inv_le_one_of_one_le₀ whole)
  exact smaller.trans small

private theorem word_room : 2 ^ 63 * (3 * 10 ^ 288) < bound := by decide +kernel

theorem scaleByTen?_some {x : Binary64} (steps : ℕ) {power : ℤ} (small : size x ≤ 2 ^ 64)
    (low : power ≤ 288) : ∃ y, scaleByTen? steps x power = some y := by
  induction steps generalizing x power with
  | zero => exact ⟨x, rfl⟩
  | succ steps ih =>
    have limit : Json.maxPower = 308 := rfl
    rw [scaleByTen?, limit]
    split
    next near =>
      obtain ⟨least, most⟩ :=
        powerOfTen_bounds (show power.natAbs < 309 from Nat.lt_succ_of_le near)
      split
      next nonneg =>
        have power_le : (10 : ℚ) ^ power.natAbs ≤ 10 ^ 288 :=
          pow_le_pow_right₀ (by norm_num) (by omega)
        refine mul?_some ((mul_le_mul small most (by positivity) (by positivity)).trans_lt ?_)
        have half (t : ℚ) : 2 ^ 64 * (3 / 2 * t) = 2 ^ 63 * (3 * t) := by ring
        have room : (2 : ℚ) ^ 63 * (3 * 10 ^ 288) < bound := by exact_mod_cast word_room
        rw [half]
        exact lt_of_le_of_lt (by gcongr) room
      next negative =>
        obtain ⟨z, divided, -⟩ := div?_word least small
        exact ⟨z, divided⟩
    next far =>
      split
      · exact ⟨x, rfl⟩
      · rw [if_neg (by omega)]
        obtain ⟨z, divided, size_le⟩ :=
          div?_word (powerOfTen_bounds (by decide : 308 < 309)).1 small
        rw [divided]
        exact ih size_le (by omega)

/-- Digits that fit a word make a number at any power of ten that is not close to the
greatest. -/
theorem realOfParts?_word {digits : ℕ} (word : digits ≤ 2 ^ 64) {power : ℤ} (low : power ≤ 288)
    (negative : Bool) : ∃ y, realOfParts? negative digits power = some y := by
  obtain ⟨x, rounded, size_le⟩ := @ofQuotient?_word digits 1 false one_pos
    (by rw [Nat.cast_one, div_one]; exact_mod_cast word)
  obtain ⟨y, scaled⟩ := scaleByTen?_some 4 size_le low
  rw [realOfParts?, rounded, Option.bind_eq_bind, Option.bind_some, scaled]
  exact ⟨_, rfl⟩

private theorem greatest_shortest : ∀ negative,
    (realOfParts? negative (shortest ⟨negative, 2 ^ 53 - 1, 971⟩).digits
      (shortest ⟨negative, 2 ^ 53 - 1, 971⟩).exponent).isSome = true := by decide +kernel

private theorem half_above {x : Binary64} {most exponent : ℕ}
    (significand : 2 * x.significand + 1 ≤ most) (least : x.exponent - 1 ≤ exponent) :
    size x + 2 ^ (x.exponent - 1) ≤ (most * 2 ^ exponent : ℕ) := by
  have half : (2 : ℚ) ^ x.exponent = 2 * 2 ^ (x.exponent - 1) := by
    rw [zpow_sub₀ two_ne_zero]
    ring
  calc size x + 2 ^ (x.exponent - 1) = (2 * x.significand + 1 : ℕ) * 2 ^ (x.exponent - 1) := by
        rw [size, half]
        push_cast
        ring
    _ ≤ most * 2 ^ (exponent : ℤ) := by gcongr; norm_num
    _ = (most * 2 ^ exponent : ℕ) := by rw [zpow_natCast]; push_cast; rfl

private theorem lower_midpoint : (2 ^ 54 - 1) * 2 ^ 969 ≤ lastMidpoint := by decide +kernel

private theorem shortest_le {x : Binary64} (finite : Finite x) (some : 0 < x.significand) :
    value x.shortest ≤ bound := by
  have limit : greatestExponent = 971 := rfl
  have significand := finite.significand
  have greatest := finite.greatest
  obtain ⟨-, -, value_le⟩ := shortest_bounds finite some
  have half := @half_above x (2 ^ 54 - 1) 970 (by omega) (by omega)
  rw [bound]
  exact value_le.trans half

private theorem shortest_le_lastMidpoint {x : Binary64} (finite : Finite x)
    (some : 0 < x.significand) (smaller : ¬ (x.significand = 2 ^ 53 - 1 ∧ x.exponent = 971)) :
    value x.shortest ≤ lastMidpoint := by
  have limit : greatestExponent = 971 := rfl
  have significand := finite.significand
  obtain ⟨-, -, value_le⟩ := shortest_bounds finite some
  refine value_le.trans ?_
  rcases lt_or_eq_of_le finite.greatest with lower | extreme
  · have half := @half_above x (2 ^ 54 - 1) 969 (by omega) (by omega)
    exact half.trans (Nat.cast_le.mpr lower_midpoint)
  · have half := @half_above x (2 ^ 54 - 3) 970 (by omega) (by omega)
    rwa [lastMidpoint]

theorem shortest_exponent_lt {x : Binary64} (finite : Finite x) (some : 0 < x.significand) :
    x.shortest.exponent < 309 := by
  obtain ⟨positive, -, -⟩ := shortest_bounds finite some
  have value_le := shortest_le finite some
  by_contra large
  obtain ⟨step, exponent⟩ : ∃ step : ℕ, x.shortest.exponent = (309 + step : ℕ) :=
    ⟨(x.shortest.exponent - 309).toNat, by omega⟩
  have whole : x.shortest.digits * 10 ^ (309 + step) ≤ bound := by
    rw [value, exponent, zpow_natCast] at value_le
    exact_mod_cast value_le
  have tail := Nat.pow_le_pow_right (show 0 < 10 by decide) (Nat.le_add_right 309 step)
  have least := Nat.mul_le_mul positive tail
  exact absurd (least.trans whole) (by decide +kernel)

/-- The decimal of a finite number stays in range when it is read. -/
theorem realOfParts?_shortest {x : Binary64} (finite : Finite x) (some : 0 < x.significand) :
    ∃ y, realOfParts? x.negative x.shortest.digits x.shortest.exponent = .some y := by
  by_cases extreme : x.significand = 2 ^ 53 - 1 ∧ x.exponent = 971
  · obtain ⟨negative, significand, exponent⟩ := x
    obtain ⟨rfl, rfl⟩ := extreme
    exact Option.isSome_iff_exists.mp (greatest_shortest negative)
  obtain ⟨positive, most, -⟩ := shortest_bounds finite some
  have value_le := shortest_le_lastMidpoint finite some extreme
  have high := shortest_exponent_lt finite some
  generalize x.shortest = decimal at *
  by_cases low : decimal.exponent ≤ 288
  · exact realOfParts?_word (most.trans (by norm_num)) low _
  obtain ⟨step, exponent⟩ : ∃ step : ℕ, decimal.exponent = (289 + step : ℕ) :=
    ⟨(decimal.exponent - 289).toNat, by omega⟩
  have whole : decimal.digits * 10 ^ (289 + step) ≤ lastMidpoint := by
    rw [value, exponent, zpow_natCast] at value_le
    exact_mod_cast value_le
  obtain ⟨y, z, rounded, scaled⟩ := mul?_of_leavesRoom (room_checked step (by omega))
    ((Nat.le_div_iff_mul_le (by positivity)).mpr whole)
  have near : (decimal.exponent).natAbs = 289 + step := by omega
  have limit : 289 + step ≤ Json.maxPower := by
    have same : Json.maxPower = 308 := rfl
    omega
  rw [realOfParts?, rounded, Option.bind_eq_bind, Option.bind_some, scaleByTen?, near,
    if_pos limit, if_pos (by omega), scaled]
  exact ⟨_, rfl⟩

end MessagePress.Proofs.NumberRange
