import MessagePress.Number.Shortest
import MessagePress.Proofs.Rounding

/-! Bounds of shortest decimals. The grids become so fine that the neighbour above a number
rounds to it, so the search ends with at most eighteen digits of a number that lies in the
interval of the one it stands for. -/

namespace MessagePress.Proofs.ShortestDigits
open Binary64 Rounding

/-- The number that a decimal denotes. -/
def value (decimal : Decimal) : ℚ := decimal.digits * 10 ^ decimal.exponent

private theorem ten_pow_pos (k : ℤ) : (0 : ℚ) < 10 ^ k := by positivity

theorem holds_bounds {range : Interval} {point : ℕ} (held : range.holds point = true) :
    range.low ≤ point ∧ point ≤ range.high := by
  unfold Interval.holds at held
  split at held <;> simp only [Bool.and_eq_true, decide_eq_true_eq] at held <;> omega

theorem holds_inside {range : Interval} {point : ℕ} (low : range.low < point)
    (high : point < range.high) : range.holds point = true := by
  unfold Interval.holds
  split <;> simp only [Bool.and_eq_true, decide_eq_true_eq] <;> omega

theorem neighbour?_bounds {range : Interval} {unit digits : ℕ}
    (found : range.neighbour? unit = some digits) :
    range.low ≤ digits * unit ∧ digits * unit ≤ range.high ∧
      digits * unit ≤ range.middle + unit := by
  have below : range.middle / unit * unit ≤ range.middle := Nat.div_mul_le_self _ _
  have above : (range.middle / unit + 1) * unit ≤ range.middle + unit := by
    rw [Nat.add_mul]
    omega
  obtain ⟨rfl, held⟩ | ⟨rfl, held⟩ :
      (digits = range.middle / unit ∧ range.holds (range.middle / unit * unit) = true) ∨
        (digits = range.middle / unit + 1 ∧
          range.holds ((range.middle / unit + 1) * unit) = true) := by
    unfold Interval.neighbour? at found
    dsimp only at found
    split at found
    next down up =>
      split at found
      · exact Or.inl ⟨(Option.some.inj found).symm, down⟩
      · exact Or.inr ⟨(Option.some.inj found).symm, up⟩
    next down _ => exact Or.inl ⟨(Option.some.inj found).symm, down⟩
    next _ up => exact Or.inr ⟨(Option.some.inj found).symm, up⟩
    next => cases found
  · obtain ⟨low, high⟩ := holds_bounds held
    exact ⟨low, high, by omega⟩
  · obtain ⟨low, high⟩ := holds_bounds held
    exact ⟨low, high, above⟩

theorem neighbour?_isSome {range : Interval} {unit : ℕ} (positive : 0 < unit)
    (low : range.low ≤ range.middle) (fits : range.middle + unit < range.high) :
    (range.neighbour? unit).isSome = true := by
  have whole := Nat.div_add_mod' range.middle unit
  have rest := Nat.mod_lt range.middle positive
  have up : range.holds ((range.middle / unit + 1) * unit) = true := by
    apply holds_inside <;> rw [Nat.add_mul] <;> omega
  unfold Interval.neighbour?
  dsimp only
  rw [up]
  split
  · split <;> rfl
  · rfl
  · rfl
  · contradiction

private theorem grid_unit (range : Interval) (exponent : ℤ) (positive : 0 < range.denominator) :
    ∃ (factor unit : ℕ), 0 < factor ∧ 0 < unit ∧
      (unit : ℚ) = 10 ^ exponent * (factor * range.denominator) ∧
      range.onGrid? exponent = ((range.scale factor).neighbour? unit).map (⟨·, exponent⟩) := by
  have cast : (0 : ℚ) < range.denominator := by exact_mod_cast positive
  unfold Interval.onGrid?
  by_cases nonneg : 0 ≤ exponent
  · refine ⟨1, Nat.pow 10 exponent.toNat * range.denominator, one_pos,
      Nat.mul_pos (Nat.pow_pos (by norm_num)) positive, ?_, ?_⟩
    · push_cast [cast_pow_toNat 10 nonneg]
      ring
    · have same : range.scale 1 = range := by simp [Interval.scale]
      rw [same]
      simp only [if_pos nonneg]
  · have inverse : 0 ≤ -exponent := by omega
    refine ⟨Nat.pow 10 (-exponent).toNat, range.denominator, Nat.pow_pos (by norm_num), positive,
      ?_, ?_⟩
    · push_cast [cast_pow_toNat 10 inverse]
      rw [zpow_neg]
      field_simp
    · simp only [if_neg nonneg]

theorem onGrid?_bounds {range : Interval} {exponent : ℤ} {decimal : Decimal}
    (positive : 0 < range.denominator) (found : range.onGrid? exponent = some decimal) :
    decimal.exponent = exponent ∧ (range.low : ℚ) / range.denominator ≤ value decimal ∧
      value decimal ≤ range.high / range.denominator ∧
      value decimal ≤ range.middle / range.denominator + 10 ^ exponent := by
  obtain ⟨factor, unit, factor_pos, unit_pos, unit_eq, same⟩ := grid_unit range exponent positive
  obtain ⟨digits, neighbour, rfl⟩ := Option.map_eq_some_iff.mp (same.symm.trans found)
  obtain ⟨low, high, middle⟩ := neighbour?_bounds neighbour
  have cast : (0 : ℚ) < range.denominator := by exact_mod_cast positive
  have factor_cast : (0 : ℚ) < factor := by exact_mod_cast factor_pos
  have common : (digits : ℚ) * unit =
      digits * 10 ^ exponent * range.denominator * factor := by
    rw [unit_eq]
    ring
  have low : (range.low : ℚ) * factor ≤ digits * unit := by exact_mod_cast low
  have high : (digits : ℚ) * unit ≤ range.high * factor := by exact_mod_cast high
  have middle : (digits : ℚ) * unit ≤ range.middle * factor + unit := by exact_mod_cast middle
  rw [common] at low high middle
  refine ⟨rfl, ?_, ?_, ?_⟩
  · rw [div_le_iff₀ cast]
    exact le_of_mul_le_mul_right low factor_cast
  · rw [le_div_iff₀ cast]
    exact le_of_mul_le_mul_right high factor_cast
  · rw [← sub_le_iff_le_add, le_div_iff₀ cast]
    refine le_of_mul_le_mul_right ?_ factor_cast
    rw [unit_eq] at middle
    simp only [value]
    linarith

/-- A grid whose unit fits above the middle has a decimal in the interval. -/
theorem onGrid?_isSome {range : Interval} {exponent : ℤ} (positive : 0 < range.denominator)
    (low : range.low ≤ range.middle)
    (fits : (range.middle : ℚ) / range.denominator + 10 ^ exponent <
      range.high / range.denominator) : (range.onGrid? exponent).isSome = true := by
  obtain ⟨factor, unit, factor_pos, unit_pos, unit_eq, same⟩ := grid_unit range exponent positive
  have cast : (0 : ℚ) < range.denominator := by exact_mod_cast positive
  have factor_cast : (0 : ℚ) < factor := by exact_mod_cast factor_pos
  rw [same, Option.isSome_map]
  apply neighbour?_isSome unit_pos (Nat.mul_le_mul_right factor low)
  rw [lt_div_iff₀ cast, add_mul, div_mul_cancel₀ _ cast.ne'] at fits
  have scaled := mul_lt_mul_of_pos_right fits factor_cast
  have bound : (range.middle : ℚ) * factor + unit < range.high * factor := by
    rw [unit_eq]
    linarith
  exact_mod_cast bound

/-- A search whose grids include one with a decimal ends on one of them. -/
theorem search_found {range : Interval} {grids : ℕ} {exponent : ℤ}
    (hit : ∃ step < grids, (range.onGrid? (exponent - step)).isSome = true) :
    ∃ step < grids, range.onGrid? (exponent - step) = some (range.search grids exponent) := by
  induction grids generalizing exponent with
  | zero =>
    obtain ⟨step, impossible, -⟩ := hit
    exact absurd impossible (Nat.not_lt_zero step)
  | succ grids ih =>
    rw [Interval.search]
    cases first : range.onGrid? exponent with
    | some decimal => exact ⟨0, Nat.succ_pos grids, by simpa using first⟩
    | none =>
      have later : ∃ step < grids, (range.onGrid? (exponent - 1 - step)).isSome = true := by
        obtain ⟨step, within, found⟩ := hit
        cases step with
        | zero => simp [first] at found
        | succ step =>
          refine ⟨step, by omega, ?_⟩
          rwa [show exponent - 1 - (step : ℤ) = exponent - (step + 1 : ℕ) by push_cast; ring]
      obtain ⟨step, within, found⟩ := ih later
      refine ⟨step + 1, by omega, ?_⟩
      rwa [show exponent - ((step + 1 : ℕ) : ℤ) = exponent - 1 - step by push_cast; ring]

private theorem digitCount_bounds {number : ℕ} (positive : 0 < number) :
    10 ^ (digitCount number - 1) ≤ number ∧ number < 10 ^ digitCount number ∧
      0 < digitCount number := by
  have some : 0 < digitCount number := Nat.length_toDigits_pos
  refine ⟨?_, (Nat.length_toDigits_le_iff (by norm_num) some).mp le_rfl, some⟩
  rcases Nat.eq_zero_or_pos (digitCount number - 1) with none | more
  · rw [none]
    exact positive
  · by_contra below
    have shorter := (Nat.length_toDigits_le_iff (by norm_num : 1 < 10) more).mpr (not_le.mp below)
    rw [← digitCount] at shorter
    omega

theorem leadingExponent_bounds {numerator denominator : ℕ} (top : 0 < numerator)
    (bottom : 0 < denominator) :
    (10 : ℚ) ^ leadingExponent numerator denominator ≤ numerator / denominator ∧
      (numerator : ℚ) / denominator < 10 ^ (leadingExponent numerator denominator + 1) := by
  have top_cast : (0 : ℚ) < numerator := by exact_mod_cast top
  have bottom_cast : (0 : ℚ) < denominator := by exact_mod_cast bottom
  unfold leadingExponent
  split
  next large =>
    obtain ⟨low, high, some⟩ := digitCount_bounds (Nat.div_pos large bottom)
    generalize digitCount (numerator / denominator) = count at *
    rw [show (count : ℤ) - 1 = ((count - 1 : ℕ) : ℤ) by omega,
      show ((count - 1 : ℕ) : ℤ) + 1 = (count : ℤ) by omega, zpow_natCast, zpow_natCast,
      le_div_iff₀ bottom_cast, div_lt_iff₀ bottom_cast]
    constructor
    · exact_mod_cast (Nat.le_div_iff_mul_le bottom).mp low
    · exact_mod_cast (Nat.div_lt_iff_lt_mul bottom).mp high
  next small =>
    have some_whole : 0 < (denominator - 1) / numerator := Nat.div_pos (by omega) top
    obtain ⟨low, high, some⟩ := digitCount_bounds some_whole
    generalize digitCount ((denominator - 1) / numerator) = count at *
    have low : numerator * 10 ^ (count - 1) < denominator := by
      have bound := (Nat.le_div_iff_mul_le top).mp low
      rw [Nat.mul_comm]
      omega
    have high : denominator ≤ numerator * 10 ^ count := by
      have bound := (Nat.div_lt_iff_lt_mul top).mp high
      rw [Nat.mul_comm]
      omega
    rw [show -(count : ℤ) + 1 = -((count - 1 : ℕ) : ℤ) by omega, zpow_neg, zpow_neg, zpow_natCast,
      zpow_natCast, le_div_iff₀ bottom_cast, div_lt_iff₀ bottom_cast, inv_mul_le_iff₀ (by positivity),
      lt_inv_mul_iff₀ (by positivity)]
    constructor
    · rw [mul_comm]
      exact_mod_cast high
    · rw [mul_comm]
      exact_mod_cast low

private theorem reachBelow_le (x : Binary64) : x.reachBelow ≤ 2 := by
  unfold reachBelow
  split <;> norm_num

theorem interval_bounds {x : Binary64} (some : 0 < x.significand) :
    0 < x.interval.denominator ∧ 0 < x.interval.low ∧ x.interval.low ≤ x.interval.middle ∧
      (x.interval.middle : ℚ) / x.interval.denominator = size x ∧
      (x.interval.high : ℚ) / x.interval.denominator = size x + 2 ^ (x.exponent - 1) := by
  have below := reachBelow_le x
  have quarter : (2 : ℚ) ^ (x.exponent - 2) * 4 = 2 ^ x.exponent := by
    rw [zpow_sub₀ two_ne_zero]
    norm_num
  have half : (2 : ℚ) ^ (x.exponent - 2) * 2 = 2 ^ (x.exponent - 1) := by
    rw [zpow_sub₀ two_ne_zero, zpow_sub₀ two_ne_zero]
    norm_num
    ring
  unfold interval
  generalize x.reachBelow = reach at *
  have low : 0 < 4 * x.significand - reach := by omega
  have middle : 4 * x.significand - reach ≤ 4 * x.significand := Nat.sub_le _ _
  dsimp only
  split
  next nonneg =>
    have positive : 0 < Nat.pow 2 (x.exponent - 2).toNat := Nat.pow_pos two_pos
    refine ⟨one_pos, Nat.mul_pos low positive, Nat.mul_le_mul_right _ middle, ?_, ?_⟩
    · simp only [Interval.scale, size]
      push_cast [cast_pow_toNat 2 nonneg]
      rw [← quarter]
      ring
    · simp only [Interval.scale, size]
      push_cast [cast_pow_toNat 2 nonneg]
      rw [← quarter, ← half]
      ring
  next negative =>
    have inverse : 0 ≤ -(x.exponent - 2) := by omega
    refine ⟨Nat.pow_pos two_pos, low, middle, ?_, ?_⟩
    · simp only [size]
      push_cast [cast_pow_toNat 2 inverse]
      rw [zpow_neg, div_inv_eq_mul, ← quarter]
      ring
    · simp only [size]
      push_cast [cast_pow_toNat 2 inverse]
      rw [zpow_neg, div_inv_eq_mul, ← quarter, ← half]
      ring

theorem trimZeros_value (steps : ℕ) (decimal : Decimal) :
    value (decimal.trimZeros steps) = value decimal ∧
      (decimal.trimZeros steps).digits ≤ decimal.digits := by
  induction steps generalizing decimal with
  | zero => exact ⟨rfl, le_rfl⟩
  | succ steps ih =>
    rw [Decimal.trimZeros]
    split
    next zero =>
      obtain ⟨same, fewer⟩ := ih ⟨decimal.digits / 10, decimal.exponent + 1⟩
      refine ⟨?_, fewer.trans (Nat.div_le_self _ _)⟩
      have whole : (decimal.digits : ℚ) = (decimal.digits / 10 : ℕ) * 10 := by
        exact_mod_cast (Nat.div_mul_cancel (Nat.dvd_of_mod_eq_zero zero.1)).symm
      rw [same, value, value, whole, zpow_add_one₀ (by norm_num)]
      ring
    next => exact ⟨rfl, le_rfl⟩

private theorem value_pos {decimal : Decimal} : 0 < value decimal ↔ 0 < decimal.digits := by
  rw [value, mul_pos_iff_of_pos_right (ten_pow_pos _)]
  exact Nat.cast_pos

/-- The last grid is finer than half a unit in the last place. -/
private theorem last_grid {x : Binary64} (finite : Finite x) {lead : ℤ}
    (leading : (10 : ℚ) ^ lead ≤ size x) : (10 : ℚ) ^ (lead - 17) < 2 ^ (x.exponent - 1) := by
  have significand : (x.significand : ℚ) < 2 ^ 53 := by exact_mod_cast finite.significand
  have whole : size x < 2 ^ 53 * 2 ^ x.exponent := by
    unfold size
    gcongr
  have tenth : (10 : ℚ) ^ (lead - 17) * 10 ^ 17 = 10 ^ lead := by
    rw [zpow_sub₀ (by norm_num)]
    norm_num
  have half : (2 : ℚ) ^ (x.exponent - 1) * 2 = 2 ^ x.exponent := by
    rw [zpow_sub₀ two_ne_zero]
    norm_num
  have positive : (0 : ℚ) < 2 ^ (x.exponent - 1) := by positivity
  rw [← half] at whole
  rw [← tenth] at leading
  have bound : (10 : ℚ) ^ (lead - 17) * 10 ^ 17 < 2 ^ (x.exponent - 1) * 10 ^ 17 :=
    calc (10 : ℚ) ^ (lead - 17) * 10 ^ 17 ≤ size x := leading
      _ < 2 ^ 53 * (2 ^ (x.exponent - 1) * 2) := whole
      _ = 2 ^ (x.exponent - 1) * 2 ^ 54 := by ring
      _ ≤ 2 ^ (x.exponent - 1) * 10 ^ 17 := by gcongr; norm_num
  exact lt_of_mul_lt_mul_right bound (by norm_num)

/-- The shortest decimal of a number that is not zero has at most eighteen digits, is not
zero, and is at most half a unit in the last place above the number. -/
theorem shortest_bounds {x : Binary64} (finite : Finite x) (some : 0 < x.significand) :
    0 < x.shortest.digits ∧ x.shortest.digits ≤ 10 ^ 18 ∧
      value x.shortest ≤ size x + 2 ^ (x.exponent - 1) := by
  obtain ⟨positive, low, low_le, middle, high⟩ := interval_bounds some
  obtain ⟨least, most⟩ := leadingExponent_bounds (low.trans_le low_le) positive
  rw [shortest, if_neg some.ne']
  dsimp only
  generalize x.interval = range at *
  generalize leadingExponent range.middle range.denominator = lead at *
  rw [middle] at least most
  have hit : ∃ step < 18, (range.onGrid? (lead - (step : ℕ))).isSome = true := by
    refine ⟨17, by norm_num, onGrid?_isSome positive low_le ?_⟩
    rw [middle, high]
    exact add_lt_add_right (last_grid finite least) _
  obtain ⟨step, within, found⟩ := search_found hit
  obtain ⟨grid, above, below, near⟩ := onGrid?_bounds positive found
  obtain ⟨same, fewer⟩ := trimZeros_value 20 (range.search 18 lead)
  generalize range.search 18 lead = decimal at *
  have cast : (0 : ℚ) < range.denominator := by exact_mod_cast positive
  have nonzero : 0 < value decimal := lt_of_lt_of_le (by positivity) above
  refine ⟨value_pos.mp (same ▸ nonzero), fewer.trans ?_, ?_⟩
  · rw [middle, value, grid] at near
    have unit := ten_pow_pos (lead - step)
    have coarse : (10 : ℚ) ^ (lead + 1) ≤ 10 ^ 18 * 10 ^ (lead - step) := by
      rw [← zpow_natCast, ← zpow_add₀ (by norm_num)]
      exact zpow_le_zpow_right₀ (by norm_num) (by push_cast; omega)
    have bound : (decimal.digits : ℚ) * 10 ^ (lead - step) < (10 ^ 18 + 1 : ℕ) * 10 ^ (lead - step) := by
      push_cast
      linarith
    have fewer := lt_of_mul_lt_mul_right bound unit.le
    exact Nat.le_of_lt_succ (by exact_mod_cast fewer)
  · rw [same, ← high]
    exact below

end MessagePress.Proofs.ShortestDigits
