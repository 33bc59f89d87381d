import MessagePress.Config.Document
import MessagePress.Proofs.NumeralAgreement
import MessagePress.Proofs.Trimming

/-! Which texts are durations. A duration is a number and a unit with blanks between them or not; its
unit is the longest one that the text ends with. What is read is the product of the two, or nothing
where the product is beyond the seconds of a duration. -/

namespace MessagePress.Proofs.DurationTexts
open Config Trimming SignedDecimals NumeralAgreement
open Yaml (Node Located Mark ScalarStyle TagBytes Decode)
open Config.Duration (splitUnit)

/-- A number as it is written, with a plus sign in front or not, if it is below the limit. -/
inductive CountText : List Char → ℕ → Prop
  | plain {digits} (decimal : Decimal digits) (fits : digitsValue digits < 2 ^ 64) :
      CountText digits (digitsValue digits)
  | plus {digits} (decimal : Decimal digits) (fits : digitsValue digits < 2 ^ 64) :
      CountText ('+' :: digits) (digitsValue digits)

/-- So many of a unit are a duration. -/
inductive Measures : List Char → ℕ → Duration → Prop
  | milliseconds {count} : Measures ['m', 's'] count ⟨count / 1000, count % 1000 * 10 ^ 6⟩
  | seconds {count} : Measures ['s'] count ⟨count, 0⟩
  | minutes {count} (fits : count * 60 < 2 ^ 64) : Measures ['m'] count ⟨count * 60, 0⟩
  | hours {count} (fits : count * 3600 < 2 ^ 64) : Measures ['h'] count ⟨count * 3600, 0⟩
  | unnamed {count} : Measures [] count ⟨count, 0⟩

/-- The text of a duration: a number and a unit, and blanks between them. -/
inductive DurationText : List Char → Duration → Prop
  | mk {number gap unit count duration} (counted : CountText number count)
      (blank : ∀ c ∈ gap, Text.isBlank c = true) (measures : Measures unit count duration) :
      DurationText (number ++ gap ++ unit) duration

variable {count : ℕ} {number gap digits unit : List Char} {duration : Duration}

theorem countText_iff : CountText number count ↔ Text.readNat 10 Duration.maxCount number = .ok count := by
  have limit : count ≤ Duration.maxCount ↔ count < 2 ^ 64 := by
    unfold Duration.maxCount
    rw [Nat.pow_eq]
    omega
  constructor
  · intro counted
    cases counted with
    | plain decimal fits =>
      obtain ⟨minus, plus⟩ := decimal_head decimal.2
      have bare := signAndDigits_plain minus plus
      rw [readNat_eq_ok (by rw [bare]), bare, decimalFrom_eq, limit]
      exact ⟨decimal, rfl, fits⟩
    | plus decimal fits =>
      rw [readNat_eq_ok rfl, signAndDigits, decimalFrom_eq, limit]
      exact ⟨decimal, rfl, fits⟩
  · intro read
    rcases text_sign number with ⟨digits, rfl⟩ | ⟨digits, rfl⟩ | ⟨minus, plus⟩
    · cases read
    · obtain ⟨decimal, rfl, fits⟩ := (readNat_eq_ok rfl).mp read
      rw [signAndDigits, decimalFrom_eq] at *
      exact .plus decimal (limit.mp fits)
    · have bare := signAndDigits_plain minus plus
      obtain ⟨decimal, rfl, fits⟩ := (readNat_eq_ok (by rw [bare])).mp read
      rw [bare, decimalFrom_eq] at *
      exact .plain decimal (limit.mp fits)

theorem CountText.lt (counted : CountText number count) : count < 2 ^ 64 := by
  cases counted with
  | plain decimal fits => exact fits
  | plus decimal fits => exact fits

theorem CountText.characters (counted : CountText number count) :
    number ≠ [] ∧ (∀ c ∈ number, Text.isBlank c = false) ∧ ∀ c ∈ number.getLast?, c.isDigit = true := by
  have digit_bare (c : Char) (digit : c.isDigit = true) : Text.isBlank c = false := by
    obtain ⟨low, high⟩ : 48 ≤ c.toNat ∧ c.toNat ≤ 57 := by
      simpa [Char.isDigit, UInt32.le_iff_toNat_le] using digit
    simp only [Text.isBlank, Bool.or_eq_false_iff, Bool.and_eq_false_iff, decide_eq_false_iff_not, beq_eq_false_iff_ne]
    omega
  cases counted with
  | plain decimal fits =>
    exact ⟨decimal.1, fun c member => digit_bare c (decimal.2 c member),
      fun c last => decimal.2 c (List.mem_of_getLast? last)⟩
  | plus decimal fits =>
    refine ⟨List.cons_ne_nil _ _, List.forall_mem_cons.mpr ⟨rfl, fun c member => digit_bare c (decimal.2 c member)⟩, ?_⟩
    intro c last
    rw [List.getLast?_cons_of_ne_nil decimal.1] at last
    exact decimal.2 c (List.mem_of_getLast? last)

/-- How a unit is written. -/
def unitText : Duration.Unit → List Char
  | .milliseconds => ['m', 's']
  | .hours => ['h']
  | .minutes => ['m']
  | .seconds => ['s']
  | .none => []

theorem splitUnit_append (text : List Char) : text = (splitUnit text).1 ++ unitText (splitUnit text).2 := by
  unfold splitUnit
  have whole {back : List Char} (same : text.reverse = back) : text = back.reverse := by
    rw [← same, List.reverse_reverse]
  split
  · exact (whole ‹_›).trans (by simp [unitText])
  · exact (whole ‹_›).trans (by simp [unitText])
  · exact (whole ‹_›).trans (by simp [unitText])
  · exact (whole ‹_›).trans (by simp [unitText])
  · exact (List.append_nil text).symm

theorem splitUnit_eq {front : List Char} (apart : ∀ c ∈ front.getLast?, c.isDigit = true ∨ Text.isBlank c = true)
    (unit : Duration.Unit) : splitUnit (front ++ unitText unit) = (front, unit) := by
  obtain ⟨back, rfl⟩ : ∃ back : List Char, front = back.reverse := ⟨front.reverse, by simp⟩
  have letter {c : Char} {tail : List Char} (same : back = c :: tail) (word : c.isDigit = false)
      (inked : Text.isBlank c = false) : False := by
    have last := apart c (by simp [same])
    simp [word, inked] at last
  cases unit with
  | milliseconds => simp [splitUnit, unitText]
  | hours => simp [splitUnit, unitText]
  | minutes => simp [splitUnit, unitText]
  | seconds =>
    simp only [splitUnit, unitText, List.reverse_append, List.reverse_reverse, List.reverse_singleton, List.singleton_append]
    split
    next same => exact (letter (List.cons.inj same).2 (by decide) (by decide)).elim
    next same => cases same
    next same => cases same
    next same => cases same; rfl
    next other => exact absurd rfl (other back)
  | none =>
    simp only [splitUnit, unitText, List.append_nil, List.reverse_reverse]
    split
    · exact (letter rfl (by decide) (by decide)).elim
    · exact (letter rfl (by decide) (by decide)).elim
    · exact (letter rfl (by decide) (by decide)).elim
    · exact (letter rfl (by decide) (by decide)).elim
    · rfl

/-- What so many of a unit are, if that is within the range of durations. -/
def amount? (unit : Duration.Unit) (count : ℕ) : Option Duration :=
  match unit.seconds? with
  | none => some (.ofMillis count)
  | some seconds =>
    if count * seconds ≤ Duration.maxCount then some (.ofSeconds (count * seconds)) else none

theorem measures_amount (unit : Duration.Unit) (small : count < 2 ^ 64) :
    Measures (unitText unit) count duration ↔ amount? unit count = some duration := by
  have limit : Duration.maxCount = 2 ^ 64 - 1 := rfl
  have single : count * 1 ≤ Duration.maxCount := by omega
  have multiple (seconds : ℕ) : count * seconds ≤ Duration.maxCount ↔ count * seconds < 2 ^ 64 := by omega
  constructor
  · intro measures
    cases unit <;> cases measures
    case milliseconds.milliseconds => rfl
    case hours.hours fits => exact if_pos ((multiple 3600).mpr fits)
    case minutes.minutes fits => exact if_pos ((multiple 60).mpr fits)
    case seconds.seconds => exact (if_pos single).trans (by rw [Nat.mul_one]; rfl)
    case none.unnamed => exact (if_pos single).trans (by rw [Nat.mul_one]; rfl)
  · intro found
    cases unit with
    | milliseconds => cases found; exact .milliseconds
    | hours =>
      obtain ⟨fits, ⟨⟩⟩ := Option.ite_none_right_eq_some.mp found
      exact .hours ((multiple 3600).mp fits)
    | minutes =>
      obtain ⟨fits, ⟨⟩⟩ := Option.ite_none_right_eq_some.mp found
      exact .minutes ((multiple 60).mp fits)
    | seconds =>
      obtain ⟨-, ⟨⟩⟩ := Option.ite_none_right_eq_some.mp found
      rw [Nat.mul_one]
      exact .seconds
    | none =>
      obtain ⟨-, ⟨⟩⟩ := Option.ite_none_right_eq_some.mp found
      rw [Nat.mul_one]
      exact .unnamed

theorem Measures.unit_eq (measures : Measures unit count duration) : ∃ named, unit = unitText named := by
  cases measures with
  | milliseconds => exact ⟨.milliseconds, rfl⟩
  | seconds => exact ⟨.seconds, rfl⟩
  | minutes => exact ⟨.minutes, rfl⟩
  | hours => exact ⟨.hours, rfl⟩
  | unnamed => exact ⟨.none, rfl⟩

/-- A duration is read in two steps: the number in front of the unit, and the amount of it. -/
theorem ofText_eq_ok (text : String) : Duration.ofText text = .ok duration ↔
    ∃ count, Text.readNat 10 Duration.maxCount
        (Text.trim Text.isBlank (splitUnit (Text.trim Text.isBlank text.toList)).1) = .ok count ∧
      amount? (splitUnit (Text.trim Text.isBlank text.toList)).2 count = some duration := by
  unfold Duration.ofText amount?
  dsimp only
  generalize Text.trim Text.isBlank text.toList = body
  split
  next empty =>
    rw [List.isEmpty_iff.mp empty]
    simp [splitUnit, Text.trim, Text.trimStart, Text.trimEnd, Text.readNat]
  next =>
    cases Text.readNat 10 Duration.maxCount (Text.trim Text.isBlank (splitUnit body).1) with
    | error fault => simp
    | ok count =>
      cases (splitUnit body).2.seconds? with
      | none => simp
      | some seconds => by_cases fits : count * seconds ≤ Duration.maxCount <;> simp [fits]

theorem durationText_of_ofText {text : String} (read : Duration.ofText text = .ok duration) :
    DurationText (Text.trim Text.isBlank text.toList) duration := by
  obtain ⟨count, counted, amount⟩ := (ofText_eq_ok text).mp read
  have bare : Bare Text.isBlank (Text.trim Text.isBlank text.toList) := trim_bare _
  generalize Text.trim Text.isBlank text.toList = body at *
  have number := countText_iff.mpr counted
  have whole := splitUnit_append body
  generalize splitUnit body = split at *
  obtain ⟨front, unit⟩ := split
  dsimp only at *
  have head : ∀ c ∈ front.head?, Text.isBlank c = false := by
    intro c first
    refine bare.head c ?_
    rw [whole, List.head?_append, first]
    rfl
  have start : Text.trimStart Text.isBlank front = front := @trimStart_eq _ [] _ (by simp) head
  obtain ⟨gap, cut, blank⟩ := trimEnd_cut Text.isBlank front
  have trimmed : Text.trim Text.isBlank front = Text.trimEnd Text.isBlank front := by rw [Text.trim, start]
  rw [trimmed] at number
  rw [whole, cut]
  exact .mk number blank ((measures_amount unit number.lt).mpr amount)

theorem ofText_of_durationText {text : String}
    (written : DurationText (Text.trim Text.isBlank text.toList) duration) :
    Duration.ofText text = .ok duration := by
  rw [ofText_eq_ok]
  generalize Text.trim Text.isBlank text.toList = body at *
  cases written with
  | @mk number gap unit count duration counted blank measures =>
    obtain ⟨some, inked, last⟩ := counted.characters
    obtain ⟨named, rfl⟩ := measures.unit_eq
    have apart : ∀ c ∈ (number ++ gap).getLast?, c.isDigit = true ∨ Text.isBlank c = true := by
      intro c final
      rw [Option.mem_def, List.getLast?_append] at final
      rcases Option.or_eq_some_iff.mp final with behind | ⟨-, before⟩
      · exact Or.inr (blank c (List.mem_of_getLast? behind))
      · exact Or.inl (last c before)
    have bare : Bare Text.isBlank number :=
      ⟨fun c first => inked c (List.mem_of_head? first), fun c final => inked c (List.mem_of_getLast? final)⟩
    have trimmed : Text.trim Text.isBlank (number ++ gap) = number := @trim_eq _ [] _ _ bare (by simp) blank
    rw [splitUnit_eq apart]
    exact ⟨count, (congrArg _ trimmed).trans (countText_iff.mp counted), (measures_amount named counted.lt).mp measures⟩

theorem DurationText.fits {text : List Char} (written : DurationText text duration) :
    duration.seconds < 2 ^ 64 ∧ duration.nanoseconds < 10 ^ 9 := by
  cases written with
  | mk counted blank measures =>
    have small := counted.lt
    cases measures with
    | milliseconds => constructor <;> dsimp only <;> omega
    | seconds => exact ⟨small, by norm_num⟩
    | minutes fits => exact ⟨fits, by norm_num⟩
    | hours fits => exact ⟨fits, by norm_num⟩
    | unnamed => exact ⟨small, by norm_num⟩

/-- A scalar that is a number: an integer, or a text of its digits. -/
inductive CountNode (count : ℕ) : Node → Prop
  | integer {mark tag text style} (untagged : Yaml.tagName? tag = none)
      (read : Yaml.scalarValue tag text style = .ok (.integer count)) :
      CountNode count (.scalar mark tag text style)
  | digits {mark tag style} (untagged : Yaml.tagName? tag = none)
      (read : Yaml.scalarValue tag (Nat.toDigits 10 count) style = .ok .text) :
      CountNode count (.scalar mark tag (Nat.toDigits 10 count) style)

theorem any_scalar {α : Type} {builder : Decode.Builder α} {text : List Char} {tag : Option TagBytes}
    {style : ScalarStyle} {value : Yaml.ScalarValue} {result : α} (untagged : Yaml.tagName? tag = none)
    (read : Yaml.scalarValue tag text style = .ok value) (built : builder.scalar text value = .ok result)
    (depth : ℕ) (mark : Mark) (path : Yaml.Path) :
    Decode.any builder depth ⟨.scalar mark tag text style, path⟩ = pure result := by
  have found (inner? : Option (Located → Decode α)) :
      Decode.anyWith builder inner? ⟨.scalar mark tag text style, path⟩ = pure result := by
    unfold Decode.anyWith
    simp only [Decode.resolve, pure_bind, Yaml.Node.tag, untagged, read, built]
    rfl
  cases depth with
  | zero => exact found none
  | succ depth => exact found _

theorem digits_decimal (count : ℕ) : Decimal (Nat.toDigits 10 count) :=
  ⟨Nat.toDigits_ne_nil, fun _ => NumberTexts.toDigits_digit⟩

theorem digits_value (count : ℕ) : digitsValue (Nat.toDigits 10 count) = count :=
  Nat.ofDigitChars_toDigits (by norm_num) (by norm_num)

theorem ofText_digits (small : count < 2 ^ 64) :
    Duration.ofText (String.ofList (Nat.toDigits 10 count)) = .ok ⟨count, 0⟩ := by
  have counted : CountText (Nat.toDigits 10 count) count := by
    have plain := CountText.plain (digits_decimal count) (by rwa [digits_value])
    rwa [digits_value] at plain
  obtain ⟨-, inked, -⟩ := counted.characters
  have bare : Bare Text.isBlank (Nat.toDigits 10 count) :=
    ⟨fun c first => inked c (List.mem_of_head? first), fun c final => inked c (List.mem_of_getLast? final)⟩
  have trimmed : Text.trim Text.isBlank (Nat.toDigits 10 count) = Nat.toDigits 10 count := by
    simpa using @trim_eq _ [] _ [] bare (by simp) (by simp)
  have written := @DurationText.mk _ [] _ _ _ counted (by simp) .unnamed
  refine ofText_of_durationText ?_
  simpa only [String.toList_ofList, trimmed, List.append_nil] using written

theorem plainValue_digits (small : count < 2 ^ 64) :
    Yaml.plainValue (Nat.toDigits 10 count) = .integer count := by
  have body := PlainNumerals.Unsigned.ofDigits (digits_decimal count).1 (digits_decimal count).2
  have plain : Yaml.hasLeadingZero (Nat.toDigits 10 count) = false :=
    @whole_plain _ false (NumberReading.toDigits_whole count)
  have within : Yaml.decimalValue (Nat.toDigits 10 count) ≤ PlainNumerals.most 64 false := by
    rw [decimalValue_eq, digits_value]
    exact Nat.le_sub_one_of_lt small
  have read : Yaml.integer? 64 (Nat.toDigits 10 count) = some (count : ℤ) := by
    have signed := @PlainNumerals.integer?_signed _ false 64 body
    rw [PlainNumerals.readNat_digits (digits_decimal count).1 (digits_decimal count).2, if_pos within,
      decimalValue_eq, digits_value] at signed
    exact signed.trans (if_neg (by simp [PlainNumerals.signed, plain]))
  have value := @PlainNumerals.plainValue_signed _ false body
  rw [PlainNumerals.signed, if_neg Bool.false_ne_true, Yaml.integerValue?, read] at value
  exact value

theorem decodeDuration_count (small : count < 2 ^ 64) (depth : ℕ) {located : Located}
    (counts : CountNode count located.node) : decodeDuration depth located = pure ⟨count, 0⟩ := by
  obtain ⟨node, path⟩ := located
  have decoded {value : WrittenDuration} (read : Decode.any writtenDuration depth ⟨node, path⟩ = pure value)
      (same : value.duration = .ok ⟨count, 0⟩) : decodeDuration depth ⟨node, path⟩ = pure ⟨count, 0⟩ := by
    rw [decodeDuration, read, pure_bind, same]
  cases counts with
  | integer untagged read =>
    have built (text : List Char) : writtenDuration.scalar text (.integer count) = .ok (.seconds count) := by
      simp [writtenDuration]
    exact decoded (any_scalar untagged read (built _) depth _ path) rfl
  | digits untagged read =>
    refine decoded (any_scalar untagged read (by rfl) depth _ path) ?_
    rw [WrittenDuration.duration, ofText_digits small]
    rfl

/-- A text is a duration if and only if what is left of it without the blanks around it is a number
and a unit, with blanks between them or not, and the seconds they make up are within range; it lasts
exactly that long. In a document a number of seconds is the same as an integer and as a text of its
digits, wherever a duration is asked for. -/
theorem duration_texts :
    (∀ text duration, Duration.ofText text = .ok duration ↔
      DurationText (Text.trim Text.isBlank text.toList) duration) ∧
    (∀ text duration, Duration.ofText text = .ok duration →
      duration.seconds < 2 ^ 64 ∧ duration.nanoseconds < 10 ^ 9) ∧
    ∀ count < 2 ^ 64,
      Yaml.scalarValue none (Nat.toDigits 10 count) .plain = .ok (.integer count) ∧
      (∀ style ≠ ScalarStyle.plain, Yaml.scalarValue none (Nat.toDigits 10 count) style = .ok .text) ∧
      ∀ depth (first second : Located), CountNode count first.node → CountNode count second.node →
        decodeDuration depth first = pure ⟨count, 0⟩ ∧
        (∀ fields, decodeKafkaField depth fields "timeout" first =
          decodeKafkaField depth fields "timeout" second) ∧
        ∀ fields, decodeScheduleField depth fields "interval" first =
          decodeScheduleField depth fields "interval" second := by
  refine ⟨fun text duration => ⟨durationText_of_ofText, ofText_of_durationText⟩,
    fun text duration read => (durationText_of_ofText read).fits, fun count small => ⟨?_, ?_, ?_⟩⟩
  · exact congrArg Except.ok (plainValue_digits small)
  · exact fun style quoted => congrArg Except.ok (if_neg quoted)
  · intro depth first second counts counts'
    have same := decodeDuration_count small depth counts
    have alike : decodeDuration depth first = decodeDuration depth second :=
      same.trans (decodeDuration_count small depth counts').symm
    have timeout (fields : KafkaFields) (located : Located) : decodeKafkaField depth fields "timeout" located =
        (do let timeout ← Decode.once "timeout" fields.timeout (decodeDuration depth located)
            return { fields with timeout }) := rfl
    have interval (fields : ScheduleFields) (located : Located) :
        decodeScheduleField depth fields "interval" located =
        (do let interval ← Decode.once "interval" fields.interval (decodeDuration depth located)
            return { fields with interval }) := rfl
    exact ⟨same, fun fields => by rw [timeout, timeout, alike], fun fields => by rw [interval, interval, alike]⟩

/-- The greatest number there is may still count milliseconds, and sixteen seconds may be written in
another radix or in quotes. -/
theorem duration_texts_limit :
    let milliseconds := " +18446744073709551615 ms\t"
    let marked : Located := ⟨.scalar .start none "0x10".toList .plain, .root⟩
    let quoted : Located := ⟨.scalar .start none (Nat.toDigits 10 16) .singleQuoted, .root⟩
    DurationText (Text.trim Text.isBlank milliseconds.toList) ⟨18446744073709551, 615000000⟩ ∧
    Duration.ofText milliseconds = .ok ⟨18446744073709551, 615000000⟩ ∧
    16 < 2 ^ 64 ∧ CountNode 16 marked.node ∧ CountNode 16 quoted.node ∧
    decodeDuration 0 marked = pure ⟨16, 0⟩ ∧
    decodeKafkaField 0 {} "timeout" marked = decodeKafkaField 0 {} "timeout" quoted := by
  intro milliseconds marked quoted
  have trimmed : Text.trim Text.isBlank milliseconds.toList =
      '+' :: "18446744073709551615".toList ++ [' '] ++ ['m', 's'] := by decide
  have counted : CountText ('+' :: "18446744073709551615".toList) 18446744073709551615 :=
    countText_iff.mpr rfl
  have written : DurationText (Text.trim Text.isBlank milliseconds.toList) ⟨18446744073709551, 615000000⟩ := by
    rw [trimmed]
    exact .mk counted (by simp; decide) .milliseconds
  have first : CountNode 16 marked.node := .integer rfl (by decide)
  have second : CountNode 16 quoted.node := .digits rfl (by decide)
  have small : 16 < 2 ^ 64 := by norm_num
  obtain ⟨same, alike, -⟩ := (duration_texts.2.2 16 small).2.2 0 marked quoted first second
  exact ⟨written, (duration_texts.1 _ _).mpr written, small, first, second, same, alike _⟩

end MessagePress.Proofs.DurationTexts
