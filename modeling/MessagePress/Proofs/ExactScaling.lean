import MessagePress.Proofs.NumberRange

/-! Decimals that are read the same in one step or in two. Rounding depends on a quotient alone,
not on how it is written; so where the digits and the power of ten are numbers already, rounding
them first changes nothing. -/

namespace MessagePress.Proofs.ExactScaling
open Binary64 Rounding NumberRange
open Json (powerOfTen scaleByTen? realOfParts?)

variable {numerator denominator top bottom digits : ℕ} {negative : Bool} {power : ℤ}

private theorem unitExponent_le (some : 0 < numerator) (positive : 0 < denominator) (some' : 0 < top)
    (positive' : 0 < bottom) (same : (numerator : ℚ) / denominator = top / bottom) :
    unitExponent numerator denominator ≤ unitExponent top bottom := by
  obtain ⟨-, -, above⟩ := unitExponent_bounds some positive
  obtain ⟨least, below, -⟩ := unitExponent_bounds some' positive'
  by_contra beyond
  have enough := above (least.trans_lt (not_le.mp beyond))
  rw [same] at enough
  have doubled : (2 : ℚ) ^ (unitExponent top bottom + 1) ≤ 2 ^ unitExponent numerator denominator := by
    gcongr
    · norm_num
    · omega
  rw [zpow_add₀ two_ne_zero, zpow_one] at doubled
  linarith

private theorem nearestInteger_scale (factor : ℕ) (positive : 0 < factor) :
    nearestInteger (factor * top) (factor * bottom) = nearestInteger top bottom := by
  unfold nearestInteger
  simp only [Nat.mul_div_mul_left _ _ positive, Nat.mul_mod_mul_left, Nat.mul_left_comm 2 factor,
    Nat.mul_lt_mul_left positive]

theorem nearestInteger_ratio (positive : 0 < denominator) (positive' : 0 < bottom)
    (same : (numerator : ℚ) / denominator = top / bottom) :
    nearestInteger numerator denominator = nearestInteger top bottom := by
  have crossed : numerator * bottom = top * denominator := by
    rw [div_eq_div_iff (by positivity) (by positivity)] at same
    exact_mod_cast same
  calc nearestInteger numerator denominator
      = nearestInteger (bottom * numerator) (bottom * denominator) := (nearestInteger_scale bottom positive').symm
    _ = nearestInteger (denominator * top) (denominator * bottom) := by
      rw [mul_comm bottom numerator, crossed, mul_comm top denominator, mul_comm bottom denominator]
    _ = nearestInteger top bottom := nearestInteger_scale denominator positive

theorem ofQuotient?_ratio (positive : 0 < denominator) (positive' : 0 < bottom)
    (same : (numerator : ℚ) / denominator = top / bottom) :
    ofQuotient? negative numerator denominator = ofQuotient? negative top bottom := by
  have zeros : numerator = 0 ↔ top = 0 := by
    have quotient (n d : ℕ) (positive : 0 < d) : n = 0 ↔ (n : ℚ) / d = 0 := by
      rw [div_eq_zero_iff, or_iff_left (by positivity), Nat.cast_eq_zero]
    rw [quotient _ _ positive, quotient _ _ positive', same]
  unfold ofQuotient?
  by_cases zero : numerator = 0
  · rw [if_pos zero, if_pos (zeros.mp zero)]
  have some := Nat.pos_of_ne_zero zero
  have some' := Nat.pos_of_ne_zero (mt zeros.mpr zero)
  rw [if_neg zero, if_neg (mt zeros.mpr zero)]
  have unit := (unitExponent_le some positive some' positive' same).antisymm
    (unitExponent_le some' positive' some positive same.symm)
  dsimp only
  rw [unit, nearestInteger_ratio (scaled_pos positive _) (scaled_pos positive' _)]
  rw [scaled_ratio, scaled_ratio, same]

theorem ofQuotient?_negate :
    ofQuotient? true numerator denominator = (ofQuotient? false numerator denominator).map negate := by
  unfold ofQuotient? ofRounded? inRange?
  dsimp only
  split_ifs <;> rfl

theorem nearestInteger_one (value : ℕ) : nearestInteger value 1 = value := by
  simp [nearestInteger, Nat.mod_one]

theorem ofQuotient?_exact (small : digits < 2 ^ 53) :
    ∃ x, ofQuotient? false digits 1 = some x ∧ x.negative = false ∧ size x = digits := by
  rcases Nat.eq_zero_or_pos digits with rfl | some
  · exact ⟨zero false, rfl, rfl, by simp [size, zero]⟩
  obtain ⟨-, below, above⟩ := unitExponent_bounds some one_pos
  have small : (digits : ℚ) < 2 ^ 53 := by exact_mod_cast small
  have whole : unitExponent digits 1 ≤ 0 := by
    by_contra beyond
    have enough := above (by unfold leastExponent; omega)
    have doubled : (2 : ℚ) ^ (1 : ℤ) ≤ 2 ^ unitExponent digits 1 := by
      gcongr
      · norm_num
      · omega
    rw [Nat.cast_one, div_one] at enough
    linarith
  rw [ofQuotient?, if_neg some.ne']
  dsimp only
  generalize unitExponent digits 1 = exponent at *
  have parts : scaled digits 1 exponent = (digits * Nat.pow 2 (-exponent).toNat, 1) := by
    unfold scaled
    split
    · obtain rfl : exponent = 0 := by omega
      simp
    · rfl
  have ratio := scaled_ratio digits 1 exponent
  rw [parts] at ratio ⊢
  rw [nearestInteger_one]
  generalize digits * Nat.pow 2 (-exponent).toNat = rounded at *
  have denotes : (rounded : ℚ) * 2 ^ exponent = digits := by
    rw [Nat.cast_one, div_one, div_one] at ratio
    rw [ratio, div_mul_cancel₀ _ (by positivity)]
  have bits : rounded < Nat.pow 2 53 := by
    have positive : (0 : ℚ) < 2 ^ exponent := by positivity
    rw [Nat.cast_one, div_one, ← denotes] at below
    exact_mod_cast lt_of_mul_lt_mul_right below positive.le
  refine ⟨⟨false, rounded, exponent⟩, ?_, rfl, denotes⟩
  rw [ofRounded?, if_neg (ne_of_lt bits)]
  exact inRange?_eq_some.mpr ⟨whole.trans (by decide), rfl⟩

private theorem powers_exact : ∀ power < 23, (powerOfTen power).negative = false ∧
    (powerOfTen power).magnitude.1 = 10 ^ power * (powerOfTen power).magnitude.2 := by decide +kernel

theorem powerOfTen_exact {power : ℕ} (small : power ≤ 22) :
    (powerOfTen power).negative = false ∧ size (powerOfTen power) = 10 ^ power := by
  obtain ⟨sign, same⟩ := powers_exact power (by omega)
  have positive : (0 : ℚ) < (powerOfTen power).magnitude.2 := by
    exact_mod_cast magnitude_pos (powerOfTen power)
  refine ⟨sign, ?_⟩
  rw [← magnitude_ratio, same]
  push_cast
  rw [mul_div_cancel_right₀ _ positive.ne']

theorem mul?_exact {x y : Binary64} (sign : x.negative = false) (sign' : y.negative = false)
    (positive : 0 < bottom) (denotes : size x * size y = (top : ℚ) / bottom) :
    x.mul? y = ofQuotient? false top bottom := by
  rw [mul?_eq, sign, sign']
  refine ofQuotient?_ratio (Nat.mul_pos (magnitude_pos x) (magnitude_pos y)) positive ?_
  push_cast
  rw [mul_div_mul_comm, magnitude_ratio, magnitude_ratio, denotes]

theorem div?_exact {x y : Binary64} (sign : x.negative = false) (sign' : y.negative = false)
    (positive : 0 < bottom) (some : 1 ≤ size y) (denotes : size x / size y = (top : ℚ) / bottom) :
    x.div? y = ofQuotient? false top bottom := by
  rw [div?_eq, sign, sign']
  refine ofQuotient?_ratio (Nat.mul_pos (magnitude_pos x) (magnitude_top some)) positive ?_
  push_cast
  rw [mul_div_mul_comm, magnitude_ratio, ← inv_div, magnitude_ratio, ← div_eq_mul_inv, denotes]

/-- Scaling few digits by a small power of ten rounds once. -/
theorem scaleByTen?_exact {x : Binary64} (sign : x.negative = false) (denotes : size x = digits)
    (near : power.natAbs ≤ 22) (steps : ℕ) :
    scaleByTen? (steps + 1) x power =
      if 0 ≤ power then ofQuotient? false (digits * Nat.pow 10 power.toNat) 1
      else ofQuotient? false digits (Nat.pow 10 (-power).toNat) := by
  obtain ⟨sign', size_eq⟩ := powerOfTen_exact near
  have limit : Json.maxPower = 308 := rfl
  rw [scaleByTen?, limit, if_pos (by omega)]
  split
  next nonneg =>
    refine mul?_exact sign sign' one_pos ?_
    rw [denotes, size_eq, Nat.pow_eq, show power.natAbs = power.toNat by omega]
    push_cast
    rw [div_one]
  next negated =>
    refine div?_exact sign sign' (Nat.pow_pos (by norm_num)) ?_ ?_
    · exact size_eq ▸ one_le_pow₀ (by norm_num)
    · rw [denotes, size_eq, Nat.pow_eq, show power.natAbs = (-power).toNat by omega]
      push_cast
      rfl

theorem ofQuotient?_signed : (ofQuotient? false numerator denominator).map
      (fun value => if negative then value.negate else value) = ofQuotient? negative numerator denominator := by
  cases negative with
  | false => exact Option.map_id'
  | true => exact ofQuotient?_negate.symm

/-- A decimal of few digits and a small power of ten is the same number either way. -/
theorem realOfParts?_exact (small : digits < 2 ^ 53) (near : power.natAbs ≤ 22) :
    realOfParts? negative digits power = ofDecimal? negative digits power := by
  obtain ⟨x, found, sign, denotes⟩ := ofQuotient?_exact small
  have rounded : realOfParts? negative digits power =
      (scaleByTen? 4 x power).map fun value => if negative then value.negate else value := by
    rw [realOfParts?, found, Option.map_eq_bind]
    rfl
  rw [rounded, scaleByTen?_exact sign denotes near, apply_ite (Option.map _), ofQuotient?_signed,
    ofQuotient?_signed, ofDecimal?]
  have places : (Nat.toDigits 10 digits).length ≤ 16 :=
    (Nat.length_toDigits_le_iff (by norm_num) (by norm_num)).mpr (small.trans (by norm_num))
  generalize (Nat.toDigits 10 digits).length = length at places
  dsimp only
  rw [if_neg (by omega : ¬ 310 < power + length), if_neg (by omega : ¬ power + length < -330)]
  by_cases zero : digits = 0
  · simp [zero, ofQuotient?]
  · rw [if_neg zero]

end MessagePress.Proofs.ExactScaling
