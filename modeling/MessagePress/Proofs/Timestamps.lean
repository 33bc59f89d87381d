import Mathlib.Tactic.NormNum
import MessagePress.Proofs.TimeReading

/-! Times to the nanosecond. The digits of a fraction are taken from the count of nanoseconds, which
has one digit more in an inserted second: the texts of such seconds still differ from all others, but
their fraction is not the one that has passed. -/

namespace MessagePress.Proofs.Timestamps
open MessagePress.Time TimeReading NumberTexts
open SignedDecimals (Decimal digits_span)

variable {instant : Instant} {nanoseconds count : Nat} {fraction : List Char}

/-- The fraction of a second with so many nanoseconds: nothing if there are none, and otherwise a
point and at most nine digits, the last of them not zero. -/
inductive FractionText : Nat → List Char → Prop
  | none : FractionText 0 []
  | some {digits : List Char} (decimal : Decimal digits) (short : digits.length ≤ 9)
      (last : digits.getLast? ≠ some '0') :
      FractionText (Nat.ofDigitChars 10 digits 0 * 10 ^ (9 - digits.length)) ('.' :: digits)

/-- Reads the nanoseconds of a fraction, if there is one. -/
def readFraction : List Char → Option (Nat × List Char)
  | '.' :: text =>
    let digits := text.takeWhile Char.isDigit
    if digits.isEmpty || 9 < digits.length then none
    else some (Nat.ofDigitChars 10 digits 0 * 10 ^ (9 - digits.length), text.dropWhile Char.isDigit)
  | text => some (0, text)

/-- Reads a date, a time of day and a fraction in front of the letter of the zone. -/
def readTimestamp (text : List Char) : Option Instant := do
  let (shown, rest) ← readItems .none text Format.rfc3339Items
  let (nanoseconds, rest) ← readFraction rest
  if rest = ['Z'] then shown.instant? nanoseconds else none

def nanoDigits (nanoseconds : Nat) : List Char := paddedNumber .zero 9 false nanoseconds

def keptDigits (nanoseconds : Nat) : List Char := ((nanoDigits nanoseconds).reverse.dropWhile (· == '0')).reverse

theorem trimmedFraction_eq (nanoseconds : Nat) : Format.trimmedFraction nanoseconds =
    if keptDigits nanoseconds = [] then [] else '.' :: keptDigits nanoseconds := by
  have left :
      ((paddedNumber .zero 9 false nanoseconds).reverse.dropWhile (· == '0')).reverse = keptDigits nanoseconds := rfl
  unfold Format.trimmedFraction
  dsimp only
  rw [left]
  cases keptDigits nanoseconds <;> rfl

theorem nanoDigits_kept (nanoseconds : Nat) :
    (∃ zeros, nanoDigits nanoseconds = keptDigits nanoseconds ++ List.replicate zeros '0') ∧
      (keptDigits nanoseconds).getLast? ≠ some '0' := by
  unfold keptDigits
  generalize nanoDigits nanoseconds = digits
  constructor
  · refine ⟨(digits.reverse.takeWhile (· == '0')).length, ?_⟩
    have zeros : digits.reverse.takeWhile (· == '0') =
        List.replicate (digits.reverse.takeWhile (· == '0')).length '0' := by
      refine List.eq_replicate_iff.mpr ⟨rfl, fun c member => ?_⟩
      exact beq_iff_eq.mp (List.all_eq_true.mp List.all_takeWhile c member)
    rw [← List.reverse_replicate, ← zeros, ← List.reverse_append, List.takeWhile_append_dropWhile,
      List.reverse_reverse]
  · have first := List.head?_dropWhile_not (· == '0') digits.reverse
    rw [List.getLast?_reverse]
    intro zero
    rw [zero] at first
    cases first

theorem nanoDigits_decimal (nanoseconds : Nat) : Decimal (nanoDigits nanoseconds) ∧
    Nat.ofDigitChars 10 (nanoDigits nanoseconds) 0 = nanoseconds := by
  obtain ⟨digits, shown, decimal, value⟩ := paddedNumber_parts 9 false nanoseconds
  have unsigned : ¬(nanoseconds : Int) < 0 := by omega
  rw [if_neg unsigned] at shown
  have same : nanoDigits nanoseconds = digits := shown
  rw [same, value]
  exact ⟨decimal, Int.natAbs_natCast nanoseconds⟩

/-- A second has nine places, and an inserted one has ten. -/
theorem nanoDigits_length (short : nanoseconds < 2 * nanosPerSecond) :
    (nanoDigits nanoseconds).length = if nanoseconds < nanosPerSecond then 9 else 10 := by
  have unsigned : ¬(nanoseconds : Int) < 0 := by omega
  have places (most : Nat) (some : 0 < most) :
      (Nat.toDigits 10 nanoseconds).length ≤ most ↔ nanoseconds < 10 ^ most :=
    Nat.length_toDigits_le_iff (by norm_num) some
  have nine := places 9 (by norm_num)
  have ten := places 10 (by norm_num)
  unfold nanosPerSecond at *
  simp only [nanoDigits, paddedNumber, unsigned, if_false, Bool.false_eq_true, List.length_append, List.length_nil,
    List.length_replicate, Int.natAbs_natCast]
  split <;> omega

theorem keptDigits_value (short : nanoseconds < 2 * nanosPerSecond) :
    (keptDigits nanoseconds).length ≤ (if nanoseconds < nanosPerSecond then 9 else 10) ∧
      Nat.ofDigitChars 10 (keptDigits nanoseconds) 0 *
        10 ^ ((if nanoseconds < nanosPerSecond then 9 else 10) - (keptDigits nanoseconds).length) = nanoseconds := by
  obtain ⟨⟨zeros, cut⟩, -⟩ := nanoDigits_kept nanoseconds
  have length := nanoDigits_length short
  obtain ⟨-, value⟩ := nanoDigits_decimal nanoseconds
  rw [cut, List.length_append, List.length_replicate] at length
  rw [cut, Nat.ofDigitChars_append, Nat.ofDigitChars_replicate_zero] at value
  rw [← length, Nat.add_sub_cancel_left, Nat.mul_comm]
  exact ⟨Nat.le_add_right _ _, value⟩

theorem keptDigits_decimal (nanoseconds : Nat) : ∀ c ∈ keptDigits nanoseconds, c.isDigit = true := by
  obtain ⟨⟨zeros, cut⟩, -⟩ := nanoDigits_kept nanoseconds
  have decimal := (nanoDigits_decimal nanoseconds).1.2
  rw [cut] at decimal
  exact (List.forall_mem_append.mp decimal).1

theorem trimmedFraction_short (short : nanoseconds < nanosPerSecond) :
    FractionText nanoseconds (Format.trimmedFraction nanoseconds) := by
  obtain ⟨few, value⟩ := keptDigits_value (Nat.lt_of_lt_of_le short (by decide))
  rw [if_pos short] at few value
  rw [trimmedFraction_eq]
  split
  next none =>
    rw [none, Nat.ofDigitChars_nil, Nat.zero_mul] at value
    exact value ▸ .none
  next some =>
    have shown := FractionText.some ⟨some, keptDigits_decimal nanoseconds⟩ few (nanoDigits_kept nanoseconds).2
    rwa [value] at shown

/-- In an inserted second the first of the digits is not one of the fraction. -/
theorem trimmedFraction_long (inserted : nanosPerSecond ≤ nanoseconds) (short : nanoseconds < 2 * nanosPerSecond) :
    ¬FractionText (nanoseconds % nanosPerSecond) (Format.trimmedFraction nanoseconds) := by
  obtain ⟨few, value⟩ := keptDigits_value short
  rw [if_neg (Nat.not_lt.mpr inserted)] at few value
  intro shown
  generalize passed : nanoseconds % nanosPerSecond = fraction at shown
  rw [trimmedFraction_eq] at shown
  unfold nanosPerSecond at *
  split at shown
  next none =>
    rw [none, Nat.ofDigitChars_nil, Nat.zero_mul] at value
    omega
  next some =>
    cases shown with
    | some decimal few' last =>
      have tenth : 10 - (keptDigits nanoseconds).length = 9 - (keptDigits nanoseconds).length + 1 := by omega
      rw [tenth, Nat.pow_succ, ← Nat.mul_assoc] at value
      omega

theorem trimmedFraction_injective {other : Nat} (short : nanoseconds < 2 * nanosPerSecond)
    (short' : other < 2 * nanosPerSecond) (both : nanoseconds < nanosPerSecond ↔ other < nanosPerSecond)
    (same : Format.trimmedFraction nanoseconds = Format.trimmedFraction other) : nanoseconds = other := by
  have kept : keptDigits nanoseconds = keptDigits other := by
    rw [trimmedFraction_eq, trimmedFraction_eq] at same
    split at same <;> split at same
    · simp_all
    · cases same
    · cases same
    · exact (List.cons.inj same).2
  have value := (keptDigits_value short).2
  simp only [both, kept] at value
  exact value.symm.trans (keptDigits_value short').2

theorem readFraction_text (shown : FractionText nanoseconds fraction) :
    readFraction (fraction ++ ['Z']) = some (nanoseconds, ['Z']) := by
  cases shown with
  | none => rfl
  | @some digits decimal short last =>
    obtain ⟨taken, dropped⟩ := @digits_span digits ['Z'] decimal.2 rfl
    rw [List.cons_append, readFraction]
    simp only [taken, dropped, List.isEmpty_eq_false_iff.mpr decimal.1, Nat.not_lt.mpr short, decide_false,
      Bool.or_self, Bool.false_eq_true, if_false]

theorem fraction_apart (nanoseconds : Nat) :
    (Format.trimmedFraction nanoseconds ++ ['Z']).head?.any Char.isDigit = false := by
  rw [trimmedFraction_eq]
  split <;> rfl

theorem readItems_timestamp (clock : Clock instant) :
    readItems .none (Format.text .rfc3339nano instant) Format.rfc3339Items =
      some (Format.rfc3339Items.foldl (after instant) .none,
        Format.trimmedFraction instant.nanoseconds ++ ['Z']) := by
  rw [Format.text, List.append_assoc]
  exact readItems_text (by decide) (by decide) clock (fraction_apart _) _

theorem timestamp_instant? (clock : Clock instant) :
    (Format.rfc3339Items.foldl (after instant) .none).instant? instant.fraction = some instant :=
  instant?_layout _ clock (by decide)

theorem second_lt_iff (clock : Clock instant) : instant.second < 60 ↔ instant.nanoseconds < nanosPerSecond := by
  obtain ⟨parts, -⟩ := clock.whole
  have small : instant.fraction < nanosPerSecond := Nat.mod_lt _ (by decide)
  have most := clock.second_le
  unfold nanosPerSecond at *
  omega

theorem timestamp_injective {other : Instant} (clock : Clock instant) (clock' : Clock other)
    (same : Format.text .rfc3339nano other = Format.text .rfc3339nano instant) : other = instant := by
  have read := readItems_timestamp clock'
  rw [same, readItems_timestamp clock] at read
  obtain ⟨fields, rest⟩ := Prod.mk.inj (Option.some.inj read)
  have seconds : instant.second = other.second := by
    have shown := congrFun fields .second
    rw [foldl_after, foldl_after, if_pos (by decide), if_pos (by decide)] at shown
    exact Int.ofNat.inj (Option.some.inj shown)
  have both : instant.nanoseconds < nanosPerSecond ↔ other.nanoseconds < nanosPerSecond := by
    rw [← second_lt_iff clock, ← second_lt_iff clock', seconds]
  have nanoseconds := trimmedFraction_injective clock.short clock'.short both (List.append_cancel_right rest)
  have told := timestamp_instant? clock'
  rw [← fields, Instant.fraction, ← nanoseconds] at told
  exact Option.some.inj (told.symm.trans (timestamp_instant? clock))

/-- The text of a time outside inserted seconds shows the fraction as it is documented and is read
back to the time; in an inserted second the fraction is another one; and no two times have the same
text. -/
theorem nano_timestamp (clock : Clock instant) :
    (∃ body fraction, Format.text .rfc3339 instant = body ++ ['Z'] ∧
      Format.text .rfc3339nano instant = body ++ fraction ++ ['Z'] ∧
      (FractionText instant.fraction fraction ↔ instant.nanoseconds < nanosPerSecond)) ∧
    (instant.nanoseconds < nanosPerSecond → readTimestamp (Format.text .rfc3339nano instant) = some instant) ∧
    ∀ other, Clock other → Format.text .rfc3339nano other = Format.text .rfc3339nano instant → other = instant := by
  have shown (short : instant.nanoseconds < nanosPerSecond) :
      FractionText instant.fraction (Format.trimmedFraction instant.nanoseconds) := by
    rw [Instant.fraction, Nat.mod_eq_of_lt short]
    exact trimmedFraction_short short
  refine ⟨⟨itemsText Format.rfc3339Items instant, Format.trimmedFraction instant.nanoseconds, ?_, rfl, ?_, shown⟩,
    fun short => ?_,
    fun other clock' => timestamp_injective clock clock'⟩
  · exact List.flatMap_append
  · intro documented
    refine Nat.lt_of_not_le fun inserted => ?_
    exact trimmedFraction_long inserted clock.short documented
  · have fraction := readFraction_text (shown short)
    rw [readTimestamp, readItems_timestamp clock]
    simp only [Option.bind_eq_bind, Option.bind_some, fraction, if_true]
    exact timestamp_instant? clock

/-- Zeros in front of a fraction are kept and those behind it are not. -/
theorem nano_timestamp_zeros :
    String.ofList (Format.text .rfc3339nano ⟨1136214245, 23400000⟩) = "2006-01-02T15:04:05.0234Z" ∧
      readTimestamp (Format.text .rfc3339nano ⟨1136214245, 23400000⟩) = some ⟨1136214245, 23400000⟩ :=
  ⟨by decide, (nano_timestamp ⟨by decide, by decide⟩).2.1 (by decide)⟩

/-- The first instant of the second inserted at the end of 2016 is shown a tenth of a second late. -/
theorem inserted_second_late : ¬∀ instant, Clock instant → ∃ body fraction,
    Format.text .rfc3339 instant = body ++ ['Z'] ∧
      Format.text .rfc3339nano instant = body ++ fraction ++ ['Z'] ∧ FractionText instant.fraction fraction := by
  intro claimed
  obtain ⟨body, fraction, plain, shown, documented⟩ := claimed ⟨1483228799, 1000000000⟩ ⟨by decide, by decide⟩
  have seconds : Format.text .rfc3339 ⟨1483228799, 1000000000⟩ = "2016-12-31T23:59:60".toList ++ ['Z'] := by decide
  have nanos : Format.text .rfc3339nano ⟨1483228799, 1000000000⟩ =
      "2016-12-31T23:59:60".toList ++ ['.', '1'] ++ ['Z'] := by decide
  obtain rfl := List.append_cancel_right (plain.symm.trans seconds)
  obtain rfl := List.append_cancel_left (List.append_cancel_right (shown.symm.trans nanos))
  have none : Instant.fraction ⟨1483228799, 1000000000⟩ = 0 := rfl
  rw [none] at documented
  generalize zero : 0 = passed at documented
  cases documented
  exact absurd zero (by decide)

end MessagePress.Proofs.Timestamps
