import Mathlib
import MessagePress.Number.Binary64

/-! Bounds of rounded numbers. A quotient below the midpoint above a number does not round
past that number, and what is rounded is always within the finite range. -/

namespace MessagePress.Proofs.Rounding
open Binary64

/-- The absolute value of a number. -/
def size (x : Binary64) : ℚ := x.significand * 2 ^ x.exponent

/-- Significands have 53 bits, and exponents are within their range. -/
structure Finite (x : Binary64) : Prop where
  significand : x.significand < 2 ^ 53
  least : leastExponent ≤ x.exponent
  greatest : x.exponent ≤ greatestExponent

theorem size_nonneg (x : Binary64) : 0 ≤ size x := by
  unfold size
  positivity

private theorem two_pow_pos (k : ℤ) : (0 : ℚ) < 2 ^ k := by positivity

private theorem two_pow_succ (k : ℤ) : (2 : ℚ) ^ (k + 1) = 2 * 2 ^ k := by
  rw [zpow_add₀ two_ne_zero, zpow_one, mul_comm]

theorem cast_pow_toNat (base : ℕ) {k : ℤ} (nonneg : 0 ≤ k) :
    ((Nat.pow base k.toNat : ℕ) : ℚ) = base ^ k := by
  have same : k = (k.toNat : ℤ) := (Int.toNat_of_nonneg nonneg).symm
  conv => rhs; rw [same]
  rw [zpow_natCast, Nat.pow_eq]
  push_cast
  rfl

theorem scaled_pos {numerator denominator : ℕ} (bottom : 0 < denominator) (k : ℤ) :
    0 < (scaled numerator denominator k).2 := by
  unfold scaled
  split
  · exact Nat.mul_pos bottom (Nat.pow_pos two_pos)
  · exact bottom

theorem scaled_ratio (numerator denominator : ℕ) (k : ℤ) :
    ((scaled numerator denominator k).1 : ℚ) / (scaled numerator denominator k).2 =
      numerator / denominator / 2 ^ k := by
  unfold scaled
  split
  next nonneg =>
    push_cast [cast_pow_toNat 2 nonneg]
    rw [div_div]
  next negative =>
    push_cast [cast_pow_toNat 2 (show 0 ≤ -k by omega)]
    rw [zpow_neg, ← div_eq_mul_inv, div_right_comm]

private theorem quotient_log {numerator denominator : ℕ} (top : 0 < numerator)
    (bottom : 0 < denominator) :
    (numerator : ℚ) / denominator <
        2 ^ 53 * 2 ^ ((numerator.log2 : ℤ) - denominator.log2 - 52) ∧
      2 ^ 51 * 2 ^ ((numerator.log2 : ℤ) - denominator.log2 - 52) <
        (numerator : ℚ) / denominator := by
  have top_low : (2 : ℚ) ^ numerator.log2 ≤ numerator := by
    exact_mod_cast Nat.log2_self_le top.ne'
  have top_high : (numerator : ℚ) < 2 ^ (numerator.log2 + 1) := by
    exact_mod_cast Nat.lt_log2_self
  have bottom_low : (2 : ℚ) ^ denominator.log2 ≤ denominator := by
    exact_mod_cast Nat.log2_self_le bottom.ne'
  have bottom_high : (denominator : ℚ) < 2 ^ (denominator.log2 + 1) := by
    exact_mod_cast Nat.lt_log2_self
  have positive : (0 : ℚ) < denominator := by exact_mod_cast bottom
  have guess : (2 : ℚ) ^ ((numerator.log2 : ℤ) - denominator.log2 - 52) =
      2 ^ numerator.log2 / 2 ^ denominator.log2 / 2 ^ 52 := by
    rw [zpow_sub₀ two_ne_zero, zpow_sub₀ two_ne_zero, zpow_natCast, zpow_natCast]
    norm_cast
  rw [guess]
  constructor
  · rw [div_lt_iff₀ positive]
    calc (numerator : ℚ) < 2 ^ (numerator.log2 + 1) := top_high
      _ = 2 ^ 53 * (2 ^ numerator.log2 / 2 ^ denominator.log2 / 2 ^ 52) * 2 ^ denominator.log2 := by
        field_simp
        ring
      _ ≤ _ := by gcongr
  · rw [lt_div_iff₀ positive]
    calc 2 ^ 51 * (2 ^ numerator.log2 / 2 ^ denominator.log2 / 2 ^ 52) * (denominator : ℚ)
        < 2 ^ 51 * (2 ^ numerator.log2 / 2 ^ denominator.log2 / 2 ^ 52) *
          2 ^ (denominator.log2 + 1) := by gcongr
      _ = 2 ^ numerator.log2 := by
        field_simp
        ring
      _ ≤ numerator := top_low

/-- At its unit exponent a quotient is below `2 ^ 53`, and not below `2 ^ 52` unless the
exponent is the least one. -/
theorem unitExponent_bounds {numerator denominator : ℕ} (top : 0 < numerator)
    (bottom : 0 < denominator) :
    leastExponent ≤ unitExponent numerator denominator ∧
      (numerator : ℚ) / denominator < 2 ^ 53 * 2 ^ unitExponent numerator denominator ∧
      (leastExponent < unitExponent numerator denominator →
        2 ^ 52 * 2 ^ unitExponent numerator denominator ≤ (numerator : ℚ) / denominator) := by
  obtain ⟨below, above⟩ := quotient_log top bottom
  have ratio := scaled_ratio numerator denominator ((numerator.log2 : ℤ) - denominator.log2 - 52)
  have positive := @scaled_pos numerator denominator bottom
    ((numerator.log2 : ℤ) - denominator.log2 - 52)
  generalize guessed : (numerator.log2 : ℤ) - denominator.log2 - 52 = guess at *
  have fits : (scaled numerator denominator guess).1 < (scaled numerator denominator guess).2 *
      Nat.pow 2 52 ↔ (numerator : ℚ) / denominator < 2 ^ 52 * 2 ^ guess := by
    have cast : (0 : ℚ) < (scaled numerator denominator guess).2 := by exact_mod_cast positive
    rw [← div_lt_iff₀ (two_pow_pos guess), ← ratio, div_lt_iff₀ cast, mul_comm (2 ^ 52 : ℚ)]
    exact_mod_cast Iff.rfl
  -- The exponent before it is kept in range.
  obtain ⟨exponent, unit, below, above⟩ : ∃ exponent,
      unitExponent numerator denominator = max leastExponent exponent ∧
      (numerator : ℚ) / denominator < 2 ^ 53 * 2 ^ exponent ∧
      2 ^ 52 * 2 ^ exponent ≤ (numerator : ℚ) / denominator := by
    simp only [unitExponent, guessed]
    split
    next small =>
      have half : (2 : ℚ) ^ guess = 2 * 2 ^ (guess - 1) := by
        rw [← two_pow_succ, sub_add_cancel]
      have bound := fits.mp small
      rw [half] at bound above
      exact ⟨guess - 1, rfl, by linarith, by linarith⟩
    next large => exact ⟨guess, rfl, below, not_lt.mp (mt fits.mpr large)⟩
  rw [unit]
  refine ⟨le_max_left _ _, ?_, ?_⟩
  · refine below.trans_le ?_
    gcongr
    · norm_num
    · exact le_max_right _ _
  · intro inside
    rwa [max_eq_right (le_of_lt ((lt_max_iff.mp inside).resolve_left (lt_irrefl _)))]

theorem nearestInteger_le {top bottom : ℕ} (positive : 0 < bottom) :
    (nearestInteger top bottom : ℚ) ≤ top / bottom + 1 / 2 := by
  have whole := Nat.div_add_mod' top bottom
  have bound : 2 * nearestInteger top bottom * bottom ≤ 2 * top + bottom := by
    unfold nearestInteger
    dsimp only
    split
    · rw [Nat.mul_assoc]
      omega
    · split
      · rw [Nat.mul_assoc, Nat.add_mul]
        omega
      · have even : top / bottom % 2 * bottom ≤ 1 * bottom :=
          Nat.mul_le_mul_right bottom (by omega)
        rw [Nat.mul_assoc, Nat.add_mul]
        omega
  have cast : (0 : ℚ) < bottom := by exact_mod_cast positive
  have bound : (2 : ℚ) * nearestInteger top bottom * bottom ≤ 2 * top + bottom := by
    exact_mod_cast bound
  rw [← sub_nonneg] at bound ⊢
  have split : (top : ℚ) / bottom + 1 / 2 - nearestInteger top bottom =
      (2 * top + bottom - 2 * nearestInteger top bottom * bottom) / (2 * bottom) := by
    field_simp
  rw [split]
  positivity

theorem inRange?_eq_some {x result : Binary64} :
    inRange? x = some result ↔ x.exponent ≤ greatestExponent ∧ x = result := by
  unfold inRange?
  split
  next above => simp [not_le.mpr above]
  next within => simp [not_lt.mp within]

private theorem finite_of_ofRounded? {negative : Bool} {rounded : ℕ} {exponent : ℤ}
    {result : Binary64} (most : rounded ≤ Nat.pow 2 53) (least : leastExponent ≤ exponent)
    (found : ofRounded? negative rounded exponent = some result) : Finite result := by
  unfold ofRounded? at found
  split at found
  · obtain ⟨within, rfl⟩ := inRange?_eq_some.mp found
    exact ⟨by norm_num, least.trans (Int.le_add_one le_rfl), within⟩
  next different =>
    obtain ⟨within, rfl⟩ := inRange?_eq_some.mp found
    exact ⟨lt_of_le_of_ne most different, least, within⟩

/-- A significand that has grown by a bit denotes the same at the exponent above. -/
private theorem ofRounded?_size {negative : Bool} {rounded : ℕ} {exponent : ℤ}
    (within : exponent ≤ greatestExponent)
    (grown : rounded = Nat.pow 2 53 → exponent + 1 ≤ greatestExponent) :
    ∃ result, ofRounded? negative rounded exponent = some result ∧
      size result = rounded * 2 ^ exponent := by
  unfold ofRounded?
  split
  next full =>
    refine ⟨_, inRange?_eq_some.mpr ⟨grown full, rfl⟩, ?_⟩
    simp only [size, full, two_pow_succ, Nat.pow_eq]
    push_cast
    ring
  next => exact ⟨_, inRange?_eq_some.mpr ⟨within, rfl⟩, rfl⟩

private theorem ofQuotient?_eq {negative : Bool} {numerator denominator : ℕ}
    (top : 0 < numerator) (bottom : 0 < denominator) :
    ∃ (exponent : ℤ) (rounded : ℕ), leastExponent ≤ exponent ∧
      (leastExponent < exponent → 2 ^ 52 * 2 ^ exponent ≤ (numerator : ℚ) / denominator) ∧
      (rounded : ℚ) ≤ (numerator : ℚ) / denominator / 2 ^ exponent + 1 / 2 ∧
      rounded ≤ Nat.pow 2 53 ∧
      ofQuotient? negative numerator denominator = ofRounded? negative rounded exponent := by
  obtain ⟨least, below, above⟩ := unitExponent_bounds top bottom
  have ratio := scaled_ratio numerator denominator (unitExponent numerator denominator)
  have positive := @scaled_pos numerator denominator bottom (unitExponent numerator denominator)
  have near := @nearestInteger_le (scaled numerator denominator
    (unitExponent numerator denominator)).1 _ positive
  rw [ratio] at near
  have within : (numerator : ℚ) / denominator / 2 ^ unitExponent numerator denominator < 2 ^ 53 := by
    rwa [div_lt_iff₀ (two_pow_pos _)]
  refine ⟨_, _, least, above, near, ?_, by rw [ofQuotient?, if_neg top.ne']⟩
  generalize nearestInteger _ _ = rounded at near
  have bound : (rounded : ℚ) < (Nat.pow 2 53 : ℕ) + 1 := by
    rw [Nat.pow_eq]
    push_cast
    linarith
  exact Nat.le_of_lt_succ (by exact_mod_cast bound)

theorem zero_finite (negative : Bool) : Finite (zero negative) :=
  ⟨by norm_num [zero], le_refl leastExponent, show leastExponent ≤ greatestExponent by decide⟩

theorem finite_of_ofQuotient? {negative : Bool} {numerator denominator : ℕ} {result : Binary64}
    (bottom : 0 < denominator) (found : ofQuotient? negative numerator denominator = some result) :
    Finite result := by
  rcases Nat.eq_zero_or_pos numerator with rfl | top
  · rw [ofQuotient?, if_pos rfl] at found
    cases found
    exact zero_finite negative
  · obtain ⟨exponent, rounded, least, -, -, most, same⟩ := @ofQuotient?_eq negative _ _ top bottom
    exact finite_of_ofRounded? most least (same ▸ found)

/-- A quotient below the midpoint above a number rounds to that number at most. -/
theorem ofQuotient?_le {negative : Bool} {numerator denominator : ℕ} (bottom : 0 < denominator)
    {significand : ℕ} {exponent : ℤ} (normal : 2 ^ 52 ≤ significand)
    (small : significand < 2 ^ 53) (least : leastExponent ≤ exponent)
    (greatest : exponent ≤ greatestExponent)
    (below : (numerator : ℚ) / denominator < (significand + 1 / 2) * 2 ^ exponent) :
    ∃ result, ofQuotient? negative numerator denominator = some result ∧
      size result ≤ significand * 2 ^ exponent := by
  rcases Nat.eq_zero_or_pos numerator with rfl | top
  · refine ⟨zero negative, by rw [ofQuotient?, if_pos rfl], ?_⟩
    simp only [size, zero, Nat.cast_zero, zero_mul]
    positivity
  · obtain ⟨unit, rounded, -, above, near, most, same⟩ :=
      @ofQuotient?_eq negative _ _ top bottom
    have room : (significand : ℚ) + 1 ≤ 2 ^ 53 := by exact_mod_cast small
    have normal : (2 ^ 52 : ℚ) ≤ significand := by exact_mod_cast normal
    have unit_le : unit ≤ exponent := by
      by_contra beyond
      have enough := above (by omega)
      have doubled : (2 : ℚ) ^ (exponent + 1) ≤ 2 ^ unit := by
        gcongr
        · norm_num
        · omega
      rw [two_pow_succ] at doubled
      nlinarith [two_pow_pos exponent]
    have bound : (rounded : ℚ) * 2 ^ unit ≤ significand * 2 ^ exponent ∧
        (rounded = Nat.pow 2 53 → unit + 1 ≤ greatestExponent) := by
      rcases unit_le.lt_or_eq with lower | rfl
      · refine ⟨?_, fun _ => by omega⟩
        have doubled : (2 : ℚ) ^ (unit + 1) ≤ 2 ^ exponent := by
          gcongr
          · norm_num
          · omega
        rw [two_pow_succ] at doubled
        have most : (rounded : ℚ) ≤ 2 ^ 53 := by exact_mod_cast most
        nlinarith [two_pow_pos unit, two_pow_pos exponent]
      · have quotient : (numerator : ℚ) / denominator / 2 ^ unit < significand + 1 / 2 := by
          rwa [div_lt_iff₀ (two_pow_pos unit)]
        have next : (rounded : ℚ) < (significand + 1 : ℕ) := by
          push_cast
          linarith
        have kept : rounded ≤ significand := Nat.le_of_lt_succ (by exact_mod_cast next)
        refine ⟨by gcongr, fun full => ?_⟩
        rw [full, Nat.pow_eq] at kept
        omega
    obtain ⟨result, found, same_size⟩ := @ofRounded?_size negative rounded unit
      (unit_le.trans greatest) bound.2
    exact ⟨result, same.trans found, same_size.trans_le bound.1⟩

end MessagePress.Proofs.Rounding
