import MessagePress.Proofs.NumberRange
import MessagePress.Proofs.NumberTexts
import MessagePress.Proofs.ReaderSteps

/-! Reading back the numbers of a text. Integers keep their value. The digits of other numbers
all fit the significand, so what is rounded on the way is a number again, though perhaps not
the same one. -/

namespace MessagePress.Proofs.NumberReading
open Json Json.Reader ReaderSteps NumberTexts NumberRange

/-- A byte that no number goes on with. -/
def Ends (rest : List UInt8) : Prop := ∀ byte, rest.head? = some byte →
  isDigitByte byte = false ∧ byte ≠ byteOf '.' ∧ byte ≠ byteOf 'e' ∧ byte ≠ byteOf 'E'

/-- Digits in front of a point, an exponent or the end: without a zero that could be left out. -/
structure Whole (digits : List Char) : Prop where
  decimal : ∀ c ∈ digits, c.isDigit = true
  leading : digits = ['0'] ∨ ∃ c tail, digits = c :: tail ∧ c ≠ '0'

/-- Wherever a reader begins, it goes on behind the bytes in front of the rest as another one. -/
def Continues (reader : Reader α) (bytes : List UInt8) (later : Reader α) (rest : List UInt8) : Prop :=
  ∀ index, ∃ passed, reader ⟨bytes, index⟩ = later ⟨rest, passed⟩

/-- A reader gives some number that is no integer. -/
def ReadsReal (reader : Reader Number) (bytes rest : List UInt8) : Prop :=
  ∃ value, Reads reader bytes rest (.real value)

variable {bytes middle rest : List UInt8} {digits : List Char} {negative : Bool} {significand : ℕ} {power : ℤ}

theorem digit_range {c : Char} (digit : c.isDigit = true) : 48 ≤ c.toNat ∧ c.toNat ≤ 57 := by
  simpa [Char.isDigit, UInt32.le_iff_toNat_le] using digit

theorem digit_byte {c : Char} (digit : c.isDigit = true) :
    isDigitByte (byteOf c) = true ∧ digitOf (byteOf c) = c.toNat - '0'.toNat := by
  obtain ⟨least, most⟩ := digit_range digit
  have same : (byteOf c).toNat = c.toNat := toNat_byteOf (by omega)
  constructor
  · simp only [isDigitByte, Bool.and_eq_true, decide_eq_true_eq, UInt8.le_iff_toNat_le, same]
    exact ⟨least, most⟩
  · rw [digitOf, same]
    rfl

theorem digit_bytes (decimal : ∀ c ∈ digits, c.isDigit = true) :
    ∀ byte ∈ digits.map byteOf, isDigitByte byte = true := by
  intro byte member
  obtain ⟨c, digit, rfl⟩ := List.mem_map.mp member
  exact (digit_byte (decimal c digit)).1

theorem value_ge (digits : List Char) (value : ℕ) : value ≤ Nat.ofDigitChars 10 digits value := by
  rw [Nat.ofDigitChars_eq_ofDigitChars_zero]
  have power := Nat.one_le_pow digits.length 10 (by norm_num)
  have grown := Nat.mul_le_mul_right value power
  omega

theorem gatherDigits_all (decimal : ∀ c ∈ digits, c.isDigit = true) {value : ℕ}
    (fits : Nat.ofDigitChars 10 digits value ≤ maxSignificand) :
    gatherDigits value (digits.map byteOf) = (Nat.ofDigitChars 10 digits value, []) := by
  induction digits generalizing value with
  | nil => rfl
  | cons c digits ih =>
    obtain ⟨digit, decimal⟩ := List.forall_mem_cons.mp decimal
    have step : value * 10 + digitOf (byteOf c) = 10 * value + (c.toNat - '0'.toNat) := by
      rw [(digit_byte digit).2, Nat.mul_comm]
    rw [Nat.ofDigitChars_cons] at fits ⊢
    rw [List.map_cons, gatherDigits, step, if_pos ((value_ge _ _).trans fits)]
    exact ih decimal fits

theorem gatherExponent_cases (decimal : ∀ c ∈ digits, c.isDigit = true) (value : ℕ) :
    readExponent.gatherExponent value (digits.map byteOf) =
        (Nat.ofDigitChars 10 digits value, []) ∨
      Nat.pow 2 31 ≤ Nat.ofDigitChars 10 digits value ∧
        (readExponent.gatherExponent value (digits.map byteOf)).2.isEmpty = false := by
  induction digits generalizing value with
  | nil => exact Or.inl rfl
  | cons c digits ih =>
    obtain ⟨digit, decimal⟩ := List.forall_mem_cons.mp decimal
    have step : value * 10 + digitOf (byteOf c) = 10 * value + (c.toNat - '0'.toNat) := by
      rw [(digit_byte digit).2, Nat.mul_comm]
    rw [Nat.ofDigitChars_cons, List.map_cons, readExponent.gatherExponent, step]
    split
    · exact ih decimal _
    next large => exact Or.inr ⟨(Nat.not_lt.mp large).trans (value_ge _ _), rfl⟩

theorem Continues.behind {first : Reader α} {next : α → Reader β} {later : Reader β} {value : α}
    (read : Reads first bytes middle value) (continued : Continues (next value) middle later rest) :
    Continues (first >>= next) bytes later rest := by
  intro index
  obtain ⟨between, taken⟩ := read index
  obtain ⟨passed, same⟩ := continued between
  refine ⟨passed, ?_⟩
  change Except.bind (first ⟨bytes, index⟩) _ = _
  rw [taken]
  exact same

theorem Continues.refl (reader : Reader α) : Continues reader rest reader rest := fun index => ⟨index, rfl⟩

theorem Continues.get {next : Cursor → Reader α} {later : Reader α}
    (continued : ∀ index, Continues (next ⟨bytes, index⟩) bytes later rest) :
    Continues (MonadState.get >>= next) bytes later rest := fun index => continued index index

theorem Continues.trans {reader between later : Reader α} (first : Continues reader bytes between middle)
    (second : Continues between middle later rest) : Continues reader bytes later rest := by
  intro index
  obtain ⟨passed, same⟩ := first index
  obtain ⟨last, same'⟩ := second passed
  exact ⟨last, same.trans same'⟩

theorem Continues.reads {reader later : Reader α} {value : α} (continues : Continues reader bytes later middle)
    (read : Reads later middle rest value) : Reads reader bytes rest value := by
  intro index
  obtain ⟨between, same⟩ := continues index
  rw [same]
  exact read between

theorem Continues.readsReal {reader later : Reader Number} (continues : Continues reader bytes later middle)
    (read : ReadsReal later middle rest) : ReadsReal reader bytes rest := by
  obtain ⟨value, read⟩ := read
  exact ⟨value, continues.reads read⟩

theorem ReadsReal.behind {first : Reader α} {next : α → Reader Number} {value : α}
    (read : Reads first bytes middle value) (continued : ReadsReal (next value) middle rest) :
    ReadsReal (first >>= next) bytes rest := by
  obtain ⟨result, last⟩ := continued
  exact ⟨result, read.bind last⟩

theorem real_reads (found : ∃ value, realOfParts? negative significand power = some value) :
    ReadsReal (readReal negative significand power) rest rest := by
  obtain ⟨value, found⟩ := found
  refine ⟨value, ?_⟩
  rw [readReal, found]
  exact .pure _

private theorem toDigits_cons (value : ℕ) :
    ∃ c tail, Nat.toDigits 10 value = c :: tail ∧ c.isDigit = true ∧
      (∀ d ∈ tail, d.isDigit = true) ∧ Nat.ofDigitChars 10 tail (c.toNat - '0'.toNat) = value := by
  cases spelled : Nat.toDigits 10 value with
  | nil => exact absurd spelled Nat.toDigits_ne_nil
  | cons c tail =>
    have digit : ∀ d ∈ c :: tail, d.isDigit = true := fun d member => toDigits_digit (spelled ▸ member)
    have whole := @Nat.ofDigitChars_toDigits 10 value (by norm_num) (by norm_num)
    rw [spelled, Nat.ofDigitChars_cons, Nat.mul_zero, Nat.zero_add] at whole
    exact ⟨c, tail, rfl, digit c (by simp), fun d member => digit d (by simp [member]), whole⟩

/-- A signed exponent. One that is too low to be gathered makes the number zero. -/
theorem exponent_reads {sign : Char} {exponent : ℕ} (signed : sign = '+' ∨ sign = '-')
    (ends : Ends rest) (small : sign = '+' → exponent < Nat.pow 2 31)
    (found : ∃ value, realOfParts? negative significand
      (if sign = '-' then power - exponent else power + exponent) = some value) :
    ReadsReal (readExponent negative significand power)
      ((sign :: Nat.toDigits 10 exponent).map byteOf ++ rest) rest := by
  obtain ⟨c, tail, spelled, digit, decimal, denotes⟩ := toDigits_cons exponent
  have minus : some (byteOf sign) = some (byteOf '-') ↔ sign = '-' := by
    rcases signed with rfl | rfl <;> decide
  have shown : some (byteOf sign) = some (byteOf '+') ∨ some (byteOf sign) = some (byteOf '-') := by
    rcases signed with rfl | rfl <;> decide
  rw [spelled, List.map_cons, List.map_cons, List.cons_append, List.cons_append]
  apply ReadsReal.behind .ahead
  rw [if_pos shown]
  refine .behind .skip (.behind .next ?_)
  simp only [(digit_byte digit).1, (digit_byte digit).2, Bool.not_true, Bool.false_eq_true, if_false, minus]
  have gathered : Reads (takeWhile isDigitByte) (tail.map byteOf ++ rest) rest (tail.map byteOf) :=
    .takeWhile (digit_bytes decimal) fun byte head => (ends byte head).1
  rcases gatherExponent_cases decimal (c.toNat - '0'.toNat) with whole | ⟨large, beyond⟩
  · obtain ⟨value, found⟩ := @real_reads rest _ _ _ found
    refine ⟨value, .get fun index => gathered.bind ?_⟩
    simp only [whole, denotes, List.isEmpty_nil, if_true]
    exact found
  · have negated : sign = '-' := by
      refine signed.resolve_left fun plus => ?_
      exact absurd (small plus) (Nat.not_lt.mpr (denotes ▸ large))
    refine ⟨.zero negative, .get fun index => gathered.bind ?_⟩
    simp only [beyond, negated, Bool.false_eq_true, if_false, ne_eq, not_true, and_false]
    exact .pure _

theorem exponentIfAny_reads (ends : Ends rest)
    (found : ∃ value, realOfParts? negative significand power = some value) :
    ReadsReal (readExponentIfAny negative significand power) rest rest := by
  apply ReadsReal.behind .peek
  cases following : rest.head? with
  | none => exact real_reads found
  | some byte =>
    obtain ⟨-, -, lower, upper⟩ := ends byte following
    dsimp only
    rw [if_neg (by simp [lower, upper])]
    exact real_reads found

theorem fraction_continues {behind : List UInt8} (decimal : ∀ c ∈ digits, c.isDigit = true)
    (some : digits ≠ []) (fits : Nat.ofDigitChars 10 digits significand ≤ maxSignificand)
    (stop : ∀ byte, behind.head? = .some byte → isDigitByte byte = false) :
    Continues (readFraction negative significand power) (digits.map byteOf ++ behind)
      (readExponentIfAny negative (Nat.ofDigitChars 10 digits significand) (power - digits.length)) behind := by
  refine .behind (.takeWhile (digit_bytes decimal) stop) ?_
  have shown : (digits.map byteOf).isEmpty = false := by simpa using some
  simp only [shown, Bool.false_eq_true, if_false, gatherDigits_all decimal fits, List.length_map,
    List.length_nil, Nat.sub_zero]
  exact .refl _

/-- How reading goes on behind the digits in front of a point. -/
def afterWhole (negative : Bool) (significand : ℕ) : Reader Number := do
  let following ← peek
  if following = some (byteOf '.') then
    skip
    readFraction negative significand 0
  else if following = some (byteOf 'e') ∨ following = some (byteOf 'E') then
    skip
    readExponent negative significand 0
  else
    match integerNumber negative significand with
    | some value => return value
    | none => fail .numberOutOfRange

theorem whole_continues {behind : List UInt8} (whole : Whole digits)
    (fits : Nat.ofDigitChars 10 digits 0 ≤ maxSignificand)
    (stop : ∀ byte, behind.head? = some byte → isDigitByte byte = false) :
    Continues (readNumber negative) (digits.map byteOf ++ behind)
      (afterWhole negative (Nat.ofDigitChars 10 digits 0)) behind := by
  obtain ⟨c, tail, rfl, leading⟩ : ∃ c tail, digits = c :: tail ∧ (c = '0' ∧ tail = [] ∨ c ≠ '0') := by
    rcases whole.leading with rfl | ⟨c, tail, rfl, nonzero⟩
    · exact ⟨'0', [], rfl, Or.inl ⟨rfl, rfl⟩⟩
    · exact ⟨c, tail, rfl, Or.inr nonzero⟩
  obtain ⟨digit, decimal⟩ := List.forall_mem_cons.mp whole.decimal
  rw [Nat.ofDigitChars_cons, Nat.mul_zero, Nat.zero_add] at fits ⊢
  rw [List.map_cons, List.cons_append]
  apply Continues.behind .next
  simp only [(digit_byte digit).1, Bool.not_true, Bool.false_eq_true, if_false]
  have gathered := gatherDigits_all decimal fits
  have apart : behind.head?.any isDigitByte = false := by
    cases following : behind.head? with
    | none => rfl
    | some byte => exact stop byte following
  have took : Reads (takeWhile isDigitByte) (tail.map byteOf ++ behind) behind (tail.map byteOf) :=
    .takeWhile (digit_bytes decimal) stop
  have continued := (digit_byte digit).2
  split
  next zero =>
    obtain rfl : tail = [] := by
      rcases leading with ⟨-, none⟩ | nonzero
      · exact none
      · obtain ⟨least, most⟩ := digit_range digit
        have same := congrArg UInt8.toNat zero
        rw [toNat_byteOf (by omega), toNat_byteOf (by decide)] at same
        exact absurd (Char.toNat_inj.mp same) nonzero
    rw [List.map_nil] at gathered
    rw [List.map_nil, List.nil_append]
    refine .behind (.pure []) (.behind .peek ?_)
    simp only [continued, gathered, apart, Bool.false_eq_true, and_false, if_false]
    exact .refl _
  next nonzero =>
    refine .behind took (.behind .peek ?_)
    simp only [continued, gathered, apart, Bool.false_eq_true, and_false, if_false]
    exact .refl _

theorem whole_reads {behind : List UInt8} {value : Number} (whole : Whole digits)
    (fits : Nat.ofDigitChars 10 digits 0 ≤ maxSignificand)
    (stop : ∀ byte, behind.head? = some byte → isDigitByte byte = false)
    (read : Reads (afterWhole negative (Nat.ofDigitChars 10 digits 0)) behind rest value) :
    Reads (readNumber negative) (digits.map byteOf ++ behind) rest value :=
  (whole_continues whole fits stop).reads read

theorem afterWhole_point {behind : List UInt8} :
    Continues (afterWhole negative significand) (byteOf '.' :: behind) (readFraction negative significand 0)
      behind := by
  refine .behind .ahead ?_
  rw [if_pos rfl]
  exact .behind .skip (.refl _)

theorem afterWhole_letter {letter : Char} {behind : List UInt8} (marked : letter = 'e' ∨ letter = 'E') :
    Continues (afterWhole negative significand) (byteOf letter :: behind) (readExponent negative significand 0)
      behind := by
  refine .behind .ahead ?_
  rw [if_neg (by rcases marked with rfl | rfl <;> decide), if_pos (by rcases marked with rfl | rfl <;> decide)]
  exact .behind .skip (.refl _)

theorem afterWhole_end {value : Number} (ends : Ends rest)
    (found : integerNumber negative significand = some value) :
    Reads (afterWhole negative significand) rest rest value := by
  apply Reads.bind .peek
  have apart : rest.head? ≠ some (byteOf '.') ∧ rest.head? ≠ some (byteOf 'e') ∧
      rest.head? ≠ some (byteOf 'E') := by
    refine ⟨fun same => ?_, fun same => ?_, fun same => ?_⟩
    · exact (ends _ same).2.1 rfl
    · exact (ends _ same).2.2.1 rfl
    · exact (ends _ same).2.2.2 rfl
  rw [if_neg apart.1, if_neg (by simp [apart.2]), found]
  exact .pure value

theorem exponentIfAny_letter {letter : Char} {behind : List UInt8} (marked : letter = 'e' ∨ letter = 'E') :
    Continues (readExponentIfAny negative significand power) (byteOf letter :: behind)
      (readExponent negative significand power) behind := by
  refine .behind .ahead ?_
  dsimp only
  rw [if_pos (by rcases marked with rfl | rfl <;> decide)]
  exact .behind .skip (.refl _)

private theorem maxSignificand_eq : maxSignificand = 2 ^ 64 - 1 := by
  rw [maxSignificand, Nat.pow_eq]

theorem positional_reads {whole fraction : List Char} (front : Whole whole)
    (decimal : ∀ c ∈ fraction, c.isDigit = true) (some : fraction ≠ [])
    (fits : Nat.ofDigitChars 10 (whole ++ fraction) 0 ≤ maxSignificand) (ends : Ends rest) :
    ReadsReal (readNumber negative) ((whole ++ ['.'] ++ fraction).map byteOf ++ rest) rest := by
  have word := maxSignificand_eq
  rw [Nat.ofDigitChars_append] at fits
  obtain ⟨value, read⟩ := afterWhole_point.readsReal ((fraction_continues decimal some fits
    (fun byte head => (ends byte head).1)).readsReal
    (exponentIfAny_reads ends (realOfParts?_word (by omega) (by omega) negative)))
  have apart : ∀ byte, (byteOf '.' :: (fraction.map byteOf ++ rest)).head? = .some byte →
      isDigitByte byte = false := by
    rintro byte ⟨⟩
    decide
  have wholeRead := whole_reads front ((value_ge _ _).trans fits) apart read
  refine ⟨value, ?_⟩
  simpa using wholeRead

private theorem toDigits_leading {value : ℕ} (positive : 0 < value) :
    ∃ c tail, Nat.toDigits 10 value = c :: tail ∧ c ≠ '0' := by
  induction value using Nat.strong_induction_on with
  | _ value ih =>
    by_cases single : value < 10
    · refine ⟨_, [], Nat.toDigits_of_lt_base single, ?_⟩
      rw [ne_eq, Nat.digitChar_eq_zero]
      omega
    · obtain ⟨c, tail, spelled, nonzero⟩ := ih (value / 10) (by omega) (by omega)
      rw [Nat.toDigits_of_base_le (by norm_num) (by omega), spelled]
      exact ⟨c, _, rfl, nonzero⟩

theorem toDigits_whole (value : ℕ) : Whole (Nat.toDigits 10 value) where
  decimal _ member := toDigits_digit member
  leading := by
    rcases Nat.eq_zero_or_pos value with rfl | positive
    · exact Or.inl (Nat.toDigits_zero 10)
    · exact Or.inr (toDigits_leading positive)

private theorem toDigits_value (value : ℕ) : Nat.ofDigitChars 10 (Nat.toDigits 10 value) 0 = value :=
  Nat.ofDigitChars_toDigits (by norm_num) (by norm_num)

private theorem toDigits_lt (value : ℕ) : value < 10 ^ (Nat.toDigits 10 value).length :=
  (Nat.length_toDigits_le_iff (by norm_num) Nat.length_toDigits_pos).mp le_rfl

private theorem zeros_decimal {count : ℕ} : ∀ c ∈ Binary64.zeros count, c.isDigit = true := by
  intro c member
  obtain ⟨-, rfl⟩ := List.mem_replicate.mp member
  rfl

theorem positionalText_reads {significand : ℕ} {exponent : ℤ} (word : significand ≤ 10 ^ 18)
    (normal : significand = 0 → exponent = 0)
    (small : exponent + (Nat.toDigits 10 significand).length ≤ 16) (ends : Ends rest) :
    ReadsReal (readNumber negative)
      ((Binary64.positionalText (Nat.toDigits 10 significand) exponent).map byteOf ++ rest) rest := by
  have decimal := (toDigits_whole significand).decimal
  have value := toDigits_value significand
  have room := maxSignificand_eq
  have tenth := toDigits_lt significand
  unfold Binary64.positionalText
  split
  next nonneg =>
    have whole : Whole (Nat.toDigits 10 significand ++ Binary64.zeros exponent.toNat) := by
      refine ⟨List.forall_mem_append.mpr ⟨decimal, zeros_decimal⟩, ?_⟩
      rcases Nat.eq_zero_or_pos significand with rfl | positive
      · rw [normal rfl]
        exact Or.inl rfl
      · obtain ⟨c, tail, spelled, nonzero⟩ := toDigits_leading positive
        exact Or.inr ⟨c, _, by rw [spelled]; rfl, nonzero⟩
    have fits : Nat.ofDigitChars 10 (Nat.toDigits 10 significand ++ Binary64.zeros exponent.toNat ++
        ['0']) 0 ≤ maxSignificand := by
      have product : 10 ^ exponent.toNat * significand < 10 ^ 16 :=
        calc 10 ^ exponent.toNat * significand
            < 10 ^ exponent.toNat * 10 ^ (Nat.toDigits 10 significand).length := by gcongr
          _ = 10 ^ (exponent.toNat + (Nat.toDigits 10 significand).length) := (pow_add _ _ _).symm
          _ ≤ 10 ^ 16 := Nat.pow_le_pow_right (by norm_num) (by omega)
      rw [Nat.ofDigitChars_append, Nat.ofDigitChars_append, value, Binary64.zeros,
        Nat.ofDigitChars_replicate_zero, Nat.ofDigitChars_cons, Nat.ofDigitChars_nil, room]
      norm_num at product ⊢
      omega
    have read := @positional_reads rest negative _ ['0'] whole (@zeros_decimal 1) (by simp) fits ends
    simpa using read
  next negated =>
    have positive : 0 < significand := by
      by_contra none
      exact negated (normal (Nat.eq_zero_of_not_pos none)).ge
    have fits : significand ≤ maxSignificand := by omega
    obtain ⟨c, tail, spelled, nonzero⟩ := toDigits_leading positive
    dsimp only
    split
    next inside =>
      generalize cut : (Nat.toDigits 10 significand).length - (-exponent).toNat = places
      refine positional_reads ⟨fun d member => decimal d (List.mem_of_mem_take member), ?_⟩
        (fun d member => decimal d (List.mem_of_mem_drop member)) ?_ ?_ ends
      · obtain ⟨places, rfl⟩ := Nat.exists_eq_add_one_of_ne_zero (show places ≠ 0 by omega)
        exact Or.inr ⟨c, _, by rw [spelled, List.take_succ_cons], nonzero⟩
      · rw [ne_eq, List.drop_eq_nil_iff]
        omega
      · rwa [List.take_append_drop, value]
    next =>
      have text (zeros : List Char) : ['0', '.'] ++ zeros ++ Nat.toDigits 10 significand =
          ['0'] ++ ['.'] ++ (zeros ++ Nat.toDigits 10 significand) := by simp
      rw [text]
      refine positional_reads ⟨@zeros_decimal 1, Or.inl rfl⟩
        (List.forall_mem_append.mpr ⟨zeros_decimal, decimal⟩) ?_ ?_ ends
      · simp [spelled]
      · rw [List.singleton_append, Nat.ofDigitChars_cons, Nat.ofDigitChars_append, Binary64.zeros,
          Nat.ofDigitChars_replicate_zero]
        simpa [value] using fits

/-- The text with a power of ten of a decimal that is in range when it is read. -/
theorem scientificText_reads {significand : ℕ} {exponent : ℤ} (positive : 0 < significand)
    (word : significand ≤ 10 ^ 18) (small : exponent < 2 ^ 30)
    (found : ∃ value, realOfParts? negative significand exponent = some value) (ends : Ends rest) :
    ReadsReal (readNumber negative)
      ((Binary64.scientificText (Nat.toDigits 10 significand)
        (exponent + (Nat.toDigits 10 significand).length - 1)).map byteOf ++ rest) rest := by
  have room := maxSignificand_eq
  have decimal := (toDigits_whole significand).decimal
  have value := toDigits_value significand
  have places : (Nat.toDigits 10 significand).length ≤ 19 :=
    (Nat.length_toDigits_le_iff (by norm_num) (by norm_num)).mpr (by omega)
  obtain ⟨c, tail, spelled, nonzero⟩ := toDigits_leading positive
  rw [spelled] at decimal value places ⊢
  generalize shown : exponent + ((c :: tail).length : ℕ) - 1 = power
  rw [List.length_cons] at shown places
  have lone : Whole [c] :=
    ⟨fun d member => decimal d (by simp_all), Or.inr ⟨c, [], rfl, nonzero⟩⟩
  have whole : Nat.ofDigitChars 10 tail (Nat.ofDigitChars 10 [c] 0) = significand := by
    rw [← Nat.ofDigitChars_append]
    exact value
  have fits : Nat.ofDigitChars 10 tail (Nat.ofDigitChars 10 [c] 0) ≤ maxSignificand := by omega
  have exponentRead : ReadsReal (readExponent negative significand (0 - tail.length))
      (((if power < 0 then '-' else '+') :: Nat.toDigits 10 power.natAbs).map byteOf ++ rest)
      rest := by
    refine exponent_reads (by split <;> simp) ends ?_ ?_
    · intro plus
      rw [Nat.pow_eq]
      split at plus
      · cases plus
      · omega
    · split
      next low =>
        rw [if_pos rfl, show (0 : ℤ) - tail.length - power.natAbs = exponent by omega]
        exact found
      next high =>
        rw [if_neg (by decide), show (0 : ℤ) - tail.length + power.natAbs = exponent by omega]
        exact found
  have apart (letter : Char) (tail : List UInt8) (mark : isDigitByte (byteOf letter) = false) :
      ∀ byte, (byteOf letter :: tail).head? = some byte → isDigitByte byte = false := by
    rintro byte ⟨⟩
    exact mark
  have leadFits := (value_ge tail _).trans fits
  cases tail with
  | nil =>
    rw [Nat.ofDigitChars_nil] at whole
    rw [← whole, List.length_nil, Nat.cast_zero, sub_zero] at exponentRead
    obtain ⟨read, last⟩ := (afterWhole_letter (.inl rfl)).readsReal exponentRead
    have reads := whole_reads lone leadFits (apart 'e' _ (by decide)) last
    refine ⟨read, ?_⟩
    simpa [Binary64.scientificText] using reads
  | cons d tail =>
    obtain ⟨read, last⟩ := afterWhole_point.readsReal ((fraction_continues (fun e member => decimal e (by simp_all))
      (by simp) fits (apart 'e' _ (by decide))).readsReal
        ((exponentIfAny_letter (.inl rfl)).readsReal (whole ▸ exponentRead)))
    have reads := whole_reads lone leadFits (apart '.' _ (by decide)) last
    refine ⟨read, ?_⟩
    simpa [Binary64.scientificText] using reads

theorem documentText_reads {x : Binary64} (finite : Rounding.Finite x) (ends : Ends rest) :
    ∃ unsigned, x.documentText = x.signText ++ unsigned ∧
      ReadsReal (readNumber x.negative) (unsigned.map byteOf ++ rest) rest := by
  refine ⟨_, rfl, ?_⟩
  rcases Nat.eq_zero_or_pos x.significand with zero | positive
  · have shortest : x.shortest = ⟨0, 0⟩ := by rw [Binary64.shortest, if_pos zero]
    rw [shortest]
    exact positionalText_reads (by norm_num) (fun _ => rfl) (by decide) ends
  · obtain ⟨some, word, -⟩ := ShortestDigits.shortest_bounds finite positive
    have found := realOfParts?_shortest finite positive
    have small := shortest_exponent_lt finite positive
    split
    next inside =>
      have greatest : Binary64.documentWindow.greatest = 15 := rfl
      exact positionalText_reads word (fun none => absurd none some.ne') (by omega) ends
    next => exact scientificText_reads some word (by omega) found ends

/-- The numbers that documents are read to. -/
def InRange : Number → Prop
  | .integer value => -2 ^ 63 ≤ value ∧ value < 2 ^ 64
  | .real value => Rounding.Finite value

/-- What a number may be read back as. -/
inductive NumberReadsAs : Number → Number → Prop
  | integer (value : ℤ) : NumberReadsAs (.integer value) (.integer value)
  | real (value read : Binary64) : NumberReadsAs (.real value) (.real read)

theorem integerText_reads {value : ℤ} (range : InRange (.integer value)) (ends : Ends rest) :
    Reads (readNumber (value < 0)) ((Nat.toDigits 10 value.natAbs).map byteOf ++ rest) rest
      (.integer value) := by
  obtain ⟨least, greatest⟩ := range
  have room := maxSignificand_eq
  have denotes := toDigits_value value.natAbs
  refine whole_reads (toDigits_whole _) (by omega) (fun byte head => (ends byte head).1) ?_
  refine afterWhole_end ends ?_
  rw [denotes, integerNumber, Nat.pow_eq]
  by_cases negative : value < 0
  · rw [if_pos (by simpa using negative), if_neg (by omega), Int.ofNat_natAbs_of_nonpos negative.le,
      neg_neg]
  · rw [if_neg (by simpa using negative), Int.natAbs_of_nonneg (by omega)]

/-- A number is read from its text, behind its sign if it has one. -/
theorem number_reads {number : Number} (range : InRange number) (ends : Ends rest) :
    ∃ negative unsigned read,
      number.text = (if negative then ['-'] else []) ++ unsigned ∧
      Reads (readNumber negative) (unsigned.map byteOf ++ rest) rest read ∧
      NumberReadsAs number read := by
  cases number with
  | integer value =>
    refine ⟨value < 0, Nat.toDigits 10 value.natAbs, _, ?_, integerText_reads range ends, .integer value⟩
    rw [Number.text, integerText]
    by_cases negative : value < 0 <;> simp [negative]
  | real value =>
    obtain ⟨unsigned, text, read, reads⟩ := documentText_reads range ends
    exact ⟨value.negative, unsigned, _, text, reads, .real value read⟩

theorem number_begins {bytes : List UInt8} {read : Number}
    (reads : Reads (readNumber negative) bytes rest read) :
    ∃ byte behind, bytes = byte :: behind ∧ isDigitByte byte = true := by
  obtain ⟨passed, taken⟩ := reads 0
  cases bytes with
  | nil => cases taken
  | cons byte behind =>
    refine ⟨byte, behind, rfl, ?_⟩
    by_contra other
    change (if !isDigitByte byte then fail .invalidNumber else _ : Reader Number) _ = _ at taken
    rw [if_pos (by simpa using other)] at taken
    cases taken

end MessagePress.Proofs.NumberReading
