import MessagePress.Proofs.ExactScaling
import MessagePress.Proofs.FlowDocuments
import MessagePress.Proofs.PlainNumerals

/-! Numbers that documents and plain scalars take for the same. An integer is one to both unless
it is a negated zero; a decimal is rounded once by both while its digits are a number already and
its power of ten is small. -/

namespace MessagePress.Proofs.NumeralAgreement
open Json Json.Reader Yaml StringEscapes ReaderSteps JsonSyntax SignedDecimals NumberReading PlainNumerals
  ExactScaling NumberRange JsonStrings JsonForms FlowDocuments
open Text.Utf8 (encode)
open Yaml.Decode (jsonScalar)

/-- What stands behind the digits of a decimal, and the power of ten that it tells. -/
inductive Scale : List Char → ℤ → Prop
  | none : Scale [] 0
  | power {letter text value} (marked : letter = 'e' ∨ letter = 'E') (signed : SignedDecimal text value) :
      Scale (letter :: text) value

def pointed (fraction : List Char) : List Char := if fraction = [] then [] else '.' :: fraction

def digitsValue (digits : List Char) : ℕ := Nat.ofDigitChars 10 digits 0

/-- Numbers that are read alike. -/
inductive Common : List Char → Prop
  | integer {negative digits} (whole : Whole digits) (nonzero : negative = true → digitsValue digits ≠ 0)
      (short : digitsValue digits ≤ 2 ^ 127) : Common (signed negative digits)
  | decimal {negative whole fraction scale power} (front : Whole whole)
      (behind : ∀ c ∈ fraction, c.isDigit = true) (scaled : Scale scale power)
      (marked : fraction ≠ [] ∨ scale ≠ []) (few : digitsValue (whole ++ fraction) < 2 ^ 53)
      (word : power.natAbs < 2 ^ 31) (near : (power - fraction.length).natAbs ≤ 22) :
      Common (signed negative (whole ++ (pointed fraction ++ scale)))

variable {digits fraction scale text : List Char} {negative : Bool} {significand : ℕ} {power value : ℤ}

theorem decimalValue_eq (digits : List Char) : decimalValue digits = digitsValue digits := by
  unfold decimalValue digitsValue Nat.ofDigitChars
  congr
  funext value c
  rw [Nat.mul_comm]

theorem decimalFrom_eq (digits : List Char) : decimalFrom 0 digits = digitsValue digits := decimalValue_eq digits

theorem signedDecimal_parts (signed : SignedDecimal text value) :
    ∃ sign c tail, text = sign ++ c :: tail ∧ (sign = [] ∨ sign = ['+'] ∨ sign = ['-']) ∧
      (∀ d ∈ c :: tail, d.isDigit = true) ∧
      value = if sign = ['-'] then -(digitsValue (c :: tail) : ℤ) else digitsValue (c :: tail) := by
  cases signed with
  | @plain digits some decimal =>
    obtain ⟨c, tail, rfl⟩ := List.exists_cons_of_ne_nil some
    exact ⟨[], c, tail, rfl, Or.inl rfl, decimal, congrArg Nat.cast (decimalFrom_eq _)⟩
  | @plus digits some decimal =>
    obtain ⟨c, tail, rfl⟩ := List.exists_cons_of_ne_nil some
    exact ⟨['+'], c, tail, rfl, Or.inr (Or.inl rfl), decimal, congrArg Nat.cast (decimalFrom_eq _)⟩
  | @minus digits some decimal =>
    obtain ⟨c, tail, rfl⟩ := List.exists_cons_of_ne_nil some
    refine ⟨['-'], c, tail, rfl, Or.inr (Or.inr rfl), decimal, ?_⟩
    rw [decimalFrom_eq, if_pos rfl]

theorem exponent_continues (signed : SignedDecimal text value) (word : value.natAbs < 2 ^ 31) :
    Continues (readExponent negative significand power) (text.map byteOf)
      (readReal negative significand (power + value)) [] := by
  obtain ⟨sign, c, tail, rfl, signs, decimal, value_eq⟩ := signedDecimal_parts signed
  obtain ⟨digit, decimal⟩ := List.forall_mem_cons.mp decimal
  have denotes : Nat.ofDigitChars 10 tail (c.toNat - '0'.toNat) = digitsValue (c :: tail) := by
    rw [digitsValue, Nat.ofDigitChars_cons, Nat.mul_zero, Nat.zero_add]
  have small : digitsValue (c :: tail) < 2 ^ 31 := by
    rw [value_eq] at word
    split at word <;> omega
  have whole : readExponent.gatherExponent (c.toNat - '0'.toNat) (tail.map byteOf) =
      (digitsValue (c :: tail), []) := by
    rw [← denotes] at small ⊢
    refine (gatherExponent_cases decimal _).resolve_right fun large => ?_
    rw [Nat.pow_eq] at large
    exact absurd small (Nat.not_lt.mpr large.1)
  have unsigned : some (byteOf c) ≠ some (byteOf '+') ∧ some (byteOf c) ≠ some (byteOf '-') := by
    constructor
    all_goals
      intro same
      have other := (digit_byte digit).1
      rw [Option.some.inj same] at other
      cases other
  have gathered : Reads (takeWhile isDigitByte) (tail.map byteOf ++ []) [] (tail.map byteOf) :=
    .takeWhile (digit_bytes decimal) (by rintro _ ⟨⟩)
  rw [List.append_nil] at gathered
  rw [List.map_append, List.map_cons]
  rcases signs with rfl | rfl | rfl
  all_goals refine .behind .ahead ?_
  on_goal 1 =>
    rw [if_neg (not_or.mpr unsigned)]
    refine .behind .next ?_
  on_goal 2 =>
    rw [if_pos (Or.inl rfl)]
    refine .behind .skip (.behind .next ?_)
  on_goal 3 =>
    rw [if_pos (Or.inr rfl)]
    refine .behind .skip (.behind .next ?_)
  all_goals
    simp only [(digit_byte digit).1, (digit_byte digit).2, Bool.not_true, Bool.false_eq_true, if_false]
    refine .get fun index => .behind gathered ?_
    simp only [whole, List.isEmpty_nil, if_true, value_eq]
  · rw [if_neg unsigned.2, if_neg (by decide)]
    exact .refl _
  · rw [if_neg (by decide), if_neg (by decide)]
    exact .refl _
  · rw [← sub_eq_add_neg]
    exact .refl _

private theorem mark_stops {mark : Char} {behind : List UInt8} (mark_is : isDigitByte (byteOf mark) = false) :
    ∀ byte, (byteOf mark :: behind).head? = some byte → isDigitByte byte = false := by
  rintro byte ⟨⟩
  exact mark_is

private theorem letter_mark {letter : Char} (marked : letter = 'e' ∨ letter = 'E') :
    isDigitByte (byteOf letter) = false := by
  rcases marked with rfl | rfl <;> decide

/-- A decimal of few digits is read to its digits and its power of ten. -/
theorem decimal_continues {whole : List Char} (front : Whole whole) (behind : ∀ c ∈ fraction, c.isDigit = true)
    (scaled : Scale scale power) (marked : fraction ≠ [] ∨ scale ≠ [])
    (few : digitsValue (whole ++ fraction) < 2 ^ 53) (word : power.natAbs < 2 ^ 31) :
    Continues (readNumber negative) ((whole ++ (pointed fraction ++ scale)).map byteOf)
      (readReal negative (digitsValue (whole ++ fraction)) (power - fraction.length)) [] := by
  have room : maxSignificand = 2 ^ 64 - 1 := by rw [maxSignificand, Nat.pow_eq]
  have joined : digitsValue (whole ++ fraction) = Nat.ofDigitChars 10 fraction (digitsValue whole) :=
    Nat.ofDigitChars_append _
  rw [joined] at few ⊢
  have fits : digitsValue whole ≤ maxSignificand := by
    have grown := value_ge fraction (digitsValue whole)
    omega
  rw [List.map_append]
  by_cases none : fraction = []
  · subst none
    cases scaled with
    | none => exact absurd rfl (marked.resolve_left (absurd rfl))
    | power letter_is signed =>
      refine .trans (whole_continues front fits (mark_stops (letter_mark letter_is))) ?_
      refine .trans (afterWhole_letter letter_is) ?_
      rw [List.length_nil, Nat.cast_zero, sub_zero, ← zero_add power]
      exact exponent_continues signed word
  · rw [pointed, if_neg none, List.cons_append, List.map_cons, List.map_append]
    refine .trans (whole_continues front fits (mark_stops (by decide))) (.trans afterWhole_point ?_)
    have gathered (stop : ∀ byte, (scale.map byteOf).head? = some byte → isDigitByte byte = false) :=
      @fraction_continues _ negative (digitsValue whole) 0 _ behind none (by omega) stop
    cases scaled with
    | none =>
      refine .trans (gathered (by rintro _ ⟨⟩)) (.behind .peek ?_)
      rw [zero_sub]
      exact .refl _
    | power letter_is signed =>
      refine .trans (gathered (mark_stops (letter_mark letter_is))) (.trans (exponentIfAny_letter letter_is) ?_)
      rw [zero_sub, sub_eq_neg_add]
      exact exponent_continues signed word

theorem numeral_document {body : List Char} {number : Number} (body_is : Unsigned body)
    (reads : Reads (readNumber negative) (body.map byteOf) [] number) :
    Json.ofBytes (encode (signed negative body)) = .ok (.number number) := by
  have ascii : ∀ c ∈ body, c.toNat < 0x80 := fun c member => numeralChar_ascii (body_is.spelled c member)
  have shown : encode body = body.map byteOf := encode_ascii ascii
  cases negative with
  | true =>
    rw [signed, if_pos rfl, encode_ascii_cons (by decide), shown]
    exact minus_document reads
  | false =>
    rw [signed, if_neg Bool.false_ne_true, shown]
    cases body with
    | nil => cases body_is.begins
    | cons c body => exact digits_document (digit_byte body_is.begins).1 reads

theorem exponent?_scale (scaled : Scale scale power) : exponent? scale = some power := by
  cases scaled with
  | none => rfl
  | power marked signed =>
    obtain ⟨sign, c, tail, rfl, signs, decimal, rfl⟩ := signedDecimal_parts signed
    have all : (c :: tail).all Char.isDigit = true := List.all_eq_true.mpr decimal
    have digit := decimal c List.mem_cons_self
    rw [exponent?, if_pos marked]
    rcases signs with rfl | rfl | rfl
    · have unsigned := (Unsigned.ofDigits (List.cons_ne_nil c tail) decimal).isSigned_eq
      have minus : (c :: tail).head? ≠ some '-' :=
        (Unsigned.ofDigits (List.cons_ne_nil c tail) decimal).head_ne (by decide)
      rw [List.nil_append, unsigned, if_neg Bool.false_ne_true]
      dsimp only
      rw [all, if_neg minus, decimalValue_eq]
      rfl
    · simp [isSigned, all, decimalValue_eq]
    · simp [isSigned, all, decimalValue_eq]

private theorem scale_stops (scaled : Scale scale power) : scale.head?.any Char.isDigit = false ∧
    scale.head? ≠ some '.' ∧ ∀ c ∈ scale, isNumeralChar c = true := by
  cases scaled with
  | none => simp
  | power marked signed =>
    obtain ⟨sign, c, tail, rfl, signs, decimal, -⟩ := signedDecimal_parts signed
    have spelled : ∀ d ∈ c :: tail, isNumeralChar d = true :=
        fun d member => by simp [isNumeralChar, decimal d member]
    refine ⟨by rcases marked with rfl | rfl <;> rfl, ?_, ?_⟩
    · rcases marked with rfl | rfl <;> simp
    · refine List.forall_mem_cons.mpr ⟨by rcases marked with rfl | rfl <;> rfl, ?_⟩
      refine List.forall_mem_append.mpr ⟨?_, spelled⟩
      rcases signs with rfl | rfl | rfl <;> simp [isNumeralChar]

theorem parts_decimal {whole : List Char} (front : ∀ c ∈ whole, c.isDigit = true)
    (behind : ∀ c ∈ fraction, c.isDigit = true) (scaled : Scale scale power) :
    parts (whole ++ (pointed fraction ++ scale)) = (whole, fraction, scale) := by
  obtain ⟨stop, point, -⟩ := scale_stops scaled
  unfold pointed
  split
  next none =>
    obtain ⟨taken, dropped⟩ := digits_span front stop
    rw [none, List.nil_append, parts, taken, dropped, if_neg point]
  next =>
    obtain ⟨taken, dropped⟩ := @digits_span _ ('.' :: fraction ++ scale) front rfl
    obtain ⟨taken', dropped'⟩ := digits_span behind stop
    rw [parts, taken, dropped, List.cons_append]
    simp only [List.head?_cons, if_true, List.drop_one, List.tail_cons, taken', dropped']

theorem unsigned_decimal {whole : List Char} (front : Whole whole) (behind : ∀ c ∈ fraction, c.isDigit = true)
    (scaled : Scale scale power) : Unsigned (whole ++ (pointed fraction ++ scale)) := by
  obtain ⟨-, -, spelled⟩ := scale_stops scaled
  have numeral {digits : List Char} (decimal : ∀ c ∈ digits, c.isDigit = true) :
      ∀ c ∈ digits, isNumeralChar c = true := fun c member => by simp [isNumeralChar, decimal c member]
  constructor
  · rcases front.leading with rfl | ⟨c, tail, rfl, -⟩
    · rfl
    · exact front.decimal c List.mem_cons_self
  · refine List.forall_mem_append.mpr ⟨numeral front.decimal, List.forall_mem_append.mpr ⟨?_, spelled⟩⟩
    unfold pointed
    split
    · simp
    · exact List.forall_mem_cons.mpr ⟨rfl, numeral behind⟩

private theorem whole_ne_nil {whole : List Char} (front : Whole whole) : whole ≠ [] := by
  rcases front.leading with rfl | ⟨c, tail, rfl, -⟩ <;> exact List.cons_ne_nil _ _

theorem whole_plain (whole : Whole digits) : hasLeadingZero (signed negative digits) = false := by
  have unsigned := (Unsigned.ofDigits (whole_ne_nil whole) whole.decimal).isSigned_eq
  have behind : (if isSigned (signed negative digits) then (signed negative digits).drop 1
      else signed negative digits) = digits := by
    cases negative with
    | true => rfl
    | false => simp [signed, unsigned]
  rw [hasLeadingZero, behind]
  rcases whole.leading with rfl | ⟨c, tail, rfl, nonzero⟩
  · rfl
  · simp [nonzero]

/-- No reader takes a number of one of these forms for another one than the other reader. -/
theorem common_alike {word : List Char} (common : Common word) : Alike word := by
  intro value found meant given
  cases common with
  | @integer negative digits whole nonzero short =>
    have body_is : Unsigned digits := .ofDigits (whole_ne_nil whole) whole.decimal
    have short : decimalValue digits ≤ maxMagnitude 128 := by rwa [decimalValue_eq]
    obtain ⟨fits, rfl⟩ := jsonScalar_integer (whole_ne_nil whole) whole.decimal (whole_plain whole) short given
    rw [decimalValue_eq] at fits ⊢
    have within : digitsValue digits ≤ maxSignificand := by
      refine fits.trans ?_
      cases negative <;> decide
    have read : integerNumber negative (digitsValue digits) =
        some (.integer (signedValue negative (digitsValue digits))) := by
      cases negative with
      | true =>
        have fits : digitsValue digits ≤ Nat.pow 2 63 := fits
        rw [integerNumber, if_pos rfl, if_neg (not_or.mpr ⟨nonzero rfl, Nat.not_lt.mpr fits⟩)]
        rfl
      | false => rfl
    have reads : Reads (readNumber negative) (digits.map byteOf ++ []) [] _ :=
      whole_reads whole within (by rintro _ ⟨⟩) (afterWhole_end (by rintro _ ⟨⟩) read)
    rw [List.append_nil] at reads
    exact Except.ok.inj ((numeral_document body_is reads).symm.trans meant)
  | @decimal negative whole fraction scale power front behind scaled marked few word near =>
    have body_is := unsigned_decimal front behind scaled
    obtain ⟨result, read⟩ := @realOfParts?_word (digitsValue (whole ++ fraction)) (few.le.trans (by norm_num))
      (power - fraction.length) (by omega) negative
    have exact_eq := read
    rw [realOfParts?_exact few near] at exact_eq
    have plain : decimal? (signed negative (whole ++ (pointed fraction ++ scale))) = some result := by
      rw [decimal?_signed body_is (parts_decimal front.decimal behind scaled), exponent?_scale scaled,
        decimalValue_eq]
      exact exact_eq
    have other : ¬ ∀ c ∈ whole ++ (pointed fraction ++ scale), c.isDigit = true := by
      intro decimal
      have stop := (scale_stops scaled).1
      cases scaled with
      | none =>
        have point := decimal '.' (by simp [pointed, marked.resolve_right (absurd rfl)])
        cases point
      | @power letter _ _ letter_is signed =>
        have digit : letter.isDigit = true := decimal letter (by simp)
        rw [List.head?_cons, Option.any_some, digit] at stop
        cases stop
    rw [plainValue_decimal body_is other plain] at given
    have reads :
        Reads (readNumber negative) ((whole ++ (pointed fraction ++ scale)).map byteOf) [] (.real result) := by
      refine (decimal_continues front behind scaled marked few word).reads ?_
      rw [readReal, read]
      exact .pure _
    exact (Except.ok.inj given).symm.trans (Except.ok.inj ((numeral_document body_is reads).symm.trans meant))

end MessagePress.Proofs.NumeralAgreement
