import Mathlib.Tactic.NormNum
import MessagePress.Proofs.CalendarDays
import MessagePress.Proofs.NumberTexts
import MessagePress.Proofs.SignedDecimals
import MessagePress.Time.Format

/-! Times read back by their layout. A reader goes through the items of a layout and takes down the
fields that they show; a date and a time of day make up an instant again, a second of sixty being
the one that is inserted behind a minute. -/

namespace MessagePress.Proofs.TimeReading
open MessagePress.Time CalendarDays NumberTexts
open SignedDecimals (Decimal signAndDigits signAndDigits_plain decimal_head digits_span)

/-- The fields that were read so far. -/
abbrev Shown := Field → Option Int

def Shown.none : Shown := fun _ => .none

def Shown.put (shown : Shown) (field : Field) (value : Int) : Shown :=
  fun other => if other = field then some value else shown other

/-- The instant of a date and a time of day, with the nanoseconds of its second. -/
def Shown.instant? (shown : Shown) (fraction : Nat) : Option Instant := do
  let year ← shown .year
  let month ← shown .month
  let dayOfMonth ← shown .dayOfMonth
  let hour ← shown .hour
  let minute ← shown .minute
  let second ← shown .second
  let day := dayOfDate year month.toNat dayOfMonth.toNat - epochDay
  let inserted := second / 60
  return { seconds := day * secondsPerDay + hour * 3600 + minute * 60 + second - inserted
           nanoseconds := inserted.toNat * nanosPerSecond + fraction }

def digitValue (c : Char) : Nat := c.toNat - '0'.toNat

/-- The tens of a number of two digits; a space may stand for none. -/
def tens? (padding : Padding) (c : Char) : Option Nat :=
  if c.isDigit then some (digitValue c) else if padding = .space ∧ c = ' ' then some 0 else none

def readTwo (padding : Padding) : List Char → Option (Int × List Char)
  | first :: second :: rest =>
    if second.isDigit then (tens? padding first).map fun tens => ((tens * 10 + digitValue second : Nat), rest)
    else none
  | _ => none

/-- Reads digits behind a sign, if there is one. -/
def readYear (text : List Char) : Option (Int × List Char) :=
  let (negative, body) := signAndDigits text
  let digits := body.takeWhile Char.isDigit
  let value : Int := Nat.ofDigitChars 10 digits 0
  if digits.isEmpty then none else some (if negative then -value else value, body.dropWhile Char.isDigit)

def twoPlaces : List Field := [.month, .dayOfMonth, .hour, .minute, .second]

def readField (field : Field) (padding : Padding) (text : List Char) : Option (Int × List Char) :=
  if field = .year then readYear text
  else if twoPlaces.contains field then readTwo padding text
  else none

def readFixed (fixed text : List Char) : Option (List Char) :=
  if text.take fixed.length = fixed then some (text.drop fixed.length) else none

def abbreviations (names : List String) : List (List Char) := names.map (·.toList.take 3)

/-- Reads the first three letters of a name and gives its number, counted from one. -/
def readName (names : List String) (text : List Char) : Option (Int × List Char) :=
  if (abbreviations names).contains (text.take 3) then
    some ((abbreviations names).idxOf (text.take 3) + 1, text.drop 3)
  else none

/-- Reads what an item shows. -/
def readItem (shown : Shown) (text : List Char) : Item → Option (Shown × List Char)
  | .literal c => (readFixed [c] text).map (shown, ·)
  | .number field padding => (readField field padding text).map fun (value, rest) => (shown.put field value, rest)
  | .monthAbbreviation => (readName monthNames text).map fun (value, rest) => (shown.put .month value, rest)
  | .weekdayAbbreviation =>
    (readName weekdayNames text).map fun (value, rest) => (shown.put .weekdayFromMonday value, rest)
  | .zoneName => (readFixed ['U', 'T', 'C'] text).map (shown, ·)
  | .zoneOffset parts colons => (readFixed (zoneOffsetText parts colons) text).map (shown, ·)
  | .monthName | .weekdayName | .dayHalf _ | .fraction _ _ | .shortFraction | .isoInstant => none

def readItems (shown : Shown) (text : List Char) : List Item → Option (Shown × List Char)
  | [] => some (shown, text)
  | item :: items => do
    let (shown, rest) ← readItem shown text item
    readItems shown rest items

/-- The fields of an instant that can be read. -/
def value? (instant : Instant) : Shown
  | .year => some instant.date.year
  | .month => some instant.date.month
  | .dayOfMonth => some instant.date.dayOfMonth
  | .weekdayFromMonday => some (instant.date.weekday + 1)
  | .hour => some instant.hour
  | .minute => some instant.minute
  | .second => some instant.second
  | _ => none

/-- The field that an item shows. -/
def shownBy : Item → Option Field
  | .number field _ => some field
  | .monthAbbreviation => some .month
  | .weekdayAbbreviation => some .weekdayFromMonday
  | _ => none

def isReadable : Item → Bool
  | .number field padding => field == .year && padding == .zero || twoPlaces.contains field && padding != .none
  | .literal _ | .monthAbbreviation | .weekdayAbbreviation | .zoneName | .zoneOffset _ _ => true
  | .monthName | .weekdayName | .dayHalf _ | .fraction _ _ | .shortFraction | .isoInstant => false

/-- What is shown first, if there is anything, is a character that is no digit. -/
def startsApart : List Item → Bool
  | .literal c :: _ => !c.isDigit
  | items => items.isEmpty

/-- No digit follows a year. -/
def isParted : List Item → Bool
  | [] => true
  | item :: items => (shownBy item != some .year || startsApart items) && isParted items

variable {text rest : List Char} {instant : Instant}

private theorem digitChar_digit : ∀ digit < 10, (Char.ofNat ('0'.toNat + digit)).isDigit = true ∧
    digitValue (Char.ofNat ('0'.toNat + digit)) = digit := by decide

theorem readTwo_text {padding : Padding} {value : Nat} (small : value < 100) (fixed : padding ≠ .none) :
    readTwo padding (twoDigits padding value ++ rest) = some ((value : Int), rest) := by
  obtain ⟨tens, tens_value⟩ := digitChar_digit (value / 10) (by omega)
  obtain ⟨ones, ones_value⟩ := digitChar_digit (value % 10) (by omega)
  have byte : ((value : Int) % 256).toNat = value := by omega
  have whole : value / 10 * 10 + value % 10 = value := by omega
  cases padding with
  | none => exact absurd rfl fixed
  | zero =>
    simp only [twoDigits, byte, List.cons_append, List.nil_append, readTwo, tens?, tens, ones, tens_value,
      ones_value, if_true, Option.map_some, whole]
  | space =>
    by_cases single : value / 10 = 0
    · have alone : value % 10 = value := by omega
      rw [alone] at ones ones_value
      simp only [twoDigits, byte, single, alone, if_true, List.cons_append, List.nil_append, readTwo, ones, tens?,
        ones_value]
      simp
    · simp only [twoDigits, byte, single, if_false, List.cons_append, List.nil_append, readTwo, tens?, tens, ones,
        tens_value, ones_value, if_true, Option.map_some, whole]

theorem paddedNumber_parts (width : Nat) (plus : Bool) (value : Int) :
    ∃ digits, paddedNumber .zero width plus value =
        (if value < 0 then ['-'] else if plus then ['+'] else []) ++ digits ∧
      Decimal digits ∧ Nat.ofDigitChars 10 digits 0 = value.natAbs := by
  refine ⟨_, List.append_assoc _ _ _, ⟨?_, ?_⟩, ?_⟩
  · exact List.append_ne_nil_of_right_ne_nil _ Nat.toDigits_ne_nil
  · refine List.forall_mem_append.mpr ⟨fun c member => ?_, fun c member => toDigits_digit member⟩
    obtain ⟨-, rfl⟩ := List.mem_replicate.mp member
    rfl
  · rw [Nat.ofDigitChars_append, Nat.ofDigitChars_replicate_zero, Nat.mul_zero]
    exact Nat.ofDigitChars_toDigits (by decide) (by decide)

theorem readYear_signed {digits : List Char} (decimal : Decimal digits) (apart : rest.head?.any Char.isDigit = false)
    (negative plus : Bool) :
    readYear ((if negative then ['-'] else if plus then ['+'] else []) ++ digits ++ rest) =
      some (if negative then -(Nat.ofDigitChars 10 digits 0 : Int) else Nat.ofDigitChars 10 digits 0, rest) := by
  obtain ⟨some, decimal⟩ := decimal
  obtain ⟨taken, dropped⟩ := digits_span decimal apart
  have parted : signAndDigits ((if negative then ['-'] else if plus then ['+'] else []) ++ digits ++ rest) =
      (negative, digits ++ rest) := by
    obtain ⟨minus, unmarked⟩ := decimal_head decimal
    obtain ⟨c, tail, rfl⟩ := List.exists_cons_of_ne_nil some
    cases negative with
    | true => rfl
    | false =>
      cases plus with
      | true => rfl
      | false => exact signAndDigits_plain minus unmarked
  rw [readYear, parted]
  simp only [taken, dropped, List.isEmpty_eq_false_iff.mpr some, Bool.false_eq_true, if_false]

theorem readYear_text (year : Int) (apart : rest.head?.any Char.isDigit = false) :
    readYear (yearText .zero year ++ rest) = some (year, rest) := by
  have read (width : Nat) (plus : Bool) :
      readYear (paddedNumber .zero width plus year ++ rest) = some (year, rest) := by
    obtain ⟨digits, shown, decimal, value⟩ := paddedNumber_parts width plus year
    have signed := readYear_signed decimal apart (year < 0) plus
    simp only [decide_eq_true_eq] at signed
    rw [shown, signed, value]
    split <;> congr 2 <;> omega
  unfold yearText
  split
  · exact read 4 false
  · exact read 5 true

theorem readFixed_text (fixed : List Char) : readFixed fixed (fixed ++ rest) = some rest := by
  rw [readFixed, List.take_left, if_pos rfl, List.drop_left]

/-- Names that their first three letters tell apart. -/
def Distinct (names : List String) : Prop :=
  (abbreviations names).Nodup ∧ ∀ name ∈ abbreviations names, name.length = 3

theorem readName_text {names : List String} {index : Nat} (distinct : Distinct names)
    (inside : index < names.length) :
    readName names ((nameAt names index).take 3 ++ rest) = some ((index : Int) + 1, rest) := by
  have within : index < (abbreviations names).length := by rwa [abbreviations, List.length_map]
  have found : (nameAt names index).take 3 = (abbreviations names)[index] := by
    simp [nameAt, abbreviations, inside]
  have three := distinct.2 _ (List.getElem_mem within)
  rw [found, readName, List.take_left' three, List.drop_left' three,
    List.contains_iff_mem.mpr (List.getElem_mem within),
    distinct.1.idxOf_getElem]
  rfl

theorem months_distinct : Distinct monthNames := by
  unfold Distinct
  decide

theorem weekdays_distinct : Distinct weekdayNames := by
  unfold Distinct
  decide

/-- Instants that a clock shows: a second is inserted behind the last one of a minute only. -/
structure Clock (instant : Instant) : Prop where
  short : instant.nanoseconds < 2 * nanosPerSecond
  last : nanosPerSecond ≤ instant.nanoseconds → instant.seconds % 60 = 59

theorem secondOfDay_lt (instant : Instant) : instant.secondOfDay < 86400 := by
  unfold Instant.secondOfDay secondsPerDay
  omega

theorem Clock.second_le (clock : Clock instant) : instant.second ≤ 60 := by
  have short := clock.short
  unfold Instant.second nanosPerSecond at *
  omega

theorem Clock.whole (clock : Clock instant) :
    instant.second / 60 * nanosPerSecond + instant.fraction = instant.nanoseconds ∧
      instant.second - instant.second / 60 = instant.secondOfDay % 60 := by
  obtain ⟨short, last⟩ := clock
  have within : instant.secondOfDay % 60 = (instant.seconds % 60).toNat := by
    unfold Instant.secondOfDay secondsPerDay
    omega
  unfold Instant.second Instant.fraction
  rw [within]
  unfold nanosPerSecond at *
  constructor <;> omega

/-- The fields once an item has shown its own. -/
def after (instant : Instant) (shown : Shown) (item : Item) : Shown := fun field =>
  if shownBy item = some field then value? instant field else shown field

theorem put_eq_after {shown : Shown} {item : Item} {field : Field} {value : Int} (shows : shownBy item = some field)
    (known : value? instant field = some value) : shown.put field value = after instant shown item := by
  funext other
  rw [Shown.put, after, shows]
  by_cases same : other = field
  · rw [if_pos same, if_pos (congrArg some same.symm), same, known]
  · rw [if_neg same, if_neg fun equal => same (Option.some.inj equal).symm]

theorem readField_text {field : Field} {padding : Padding} (readable : isReadable (.number field padding) = true)
    (clock : Clock instant) (apart : field = .year → rest.head?.any Char.isDigit = false) :
    ∃ value, value? instant field = some value ∧
      readField field padding (fieldText field padding instant ++ rest) = some (value, rest) := by
  have day := secondOfDay_lt instant
  have date : InCalendar instant.date := ofDay_inCalendar _
  have second := clock.second_le
  simp only [isReadable, Bool.or_eq_true, Bool.and_eq_true, beq_iff_eq, bne_iff_ne] at readable
  rcases readable with ⟨rfl, rfl⟩ | ⟨two, fixed⟩
  · exact ⟨_, rfl, readYear_text _ (apart rfl)⟩
  · simp only [twoPlaces, List.contains_iff_mem, List.mem_cons, List.not_mem_nil, or_false] at two
    rcases two with rfl | rfl | rfl | rfl | rfl
    · exact ⟨_, rfl, readTwo_text (Nat.lt_of_le_of_lt date.month_le (by decide)) fixed⟩
    · exact ⟨_, rfl, readTwo_text (Nat.lt_of_le_of_lt date.dayOfMonth_le (by decide)) fixed⟩
    · exact ⟨_, rfl, readTwo_text (by unfold Instant.hour; omega) fixed⟩
    · exact ⟨_, rfl, readTwo_text (by unfold Instant.minute; omega) fixed⟩
    · exact ⟨_, rfl, readTwo_text (by omega) fixed⟩

theorem readItem_text {item : Item} (readable : isReadable item = true) (clock : Clock instant)
    (apart : shownBy item = some .year → rest.head?.any Char.isDigit = false) (shown : Shown) :
    readItem shown (itemText instant item ++ rest) item = some (after instant shown item, rest) := by
  have kept {item : Item} (silent : shownBy item = none) : after instant shown item = shown := by
    funext field
    rw [after, silent, if_neg (Option.some_ne_none field).symm]
  cases item with
  | literal c => rw [kept rfl, readItem, itemText, readFixed_text]; rfl
  | number field padding =>
    obtain ⟨value, known, read⟩ := readField_text readable clock fun year => apart (congrArg some year)
    rw [readItem, itemText, read, ← put_eq_after rfl known]
    rfl
  | monthAbbreviation =>
    have date : InCalendar instant.date := ofDay_inCalendar _
    have first := date.month_pos
    have index : ((instant.date.month - 1 : Nat) : Int) + 1 = instant.date.month := by omega
    rw [readItem, itemText,
      readName_text months_distinct (Nat.lt_of_lt_of_le (Nat.sub_one_lt_of_lt first) date.month_le),
      index, ← put_eq_after rfl rfl]
    rfl
  | weekdayAbbreviation =>
    have date : InCalendar instant.date := ofDay_inCalendar _
    rw [readItem, itemText, readName_text weekdays_distinct date.weekday_lt, ← put_eq_after rfl rfl]
    rfl
  | zoneName => rw [kept rfl, readItem, itemText, readFixed_text]; rfl
  | zoneOffset parts colons => rw [kept rfl, readItem, itemText, readFixed_text]; rfl
  | _ => cases readable

theorem startsApart_head {items : List Item} (starts : startsApart items = true)
    (apart : rest.head?.any Char.isDigit = false) :
    (itemsText items instant ++ rest).head?.any Char.isDigit = false := by
  unfold startsApart at starts
  split at starts
  next c items =>
    rw [Bool.not_eq_true'] at starts
    exact starts
  next =>
    rw [List.isEmpty_iff.mp starts]
    exact apart

/-- A layout is read to the fields that its items show. -/
theorem readItems_text {items : List Item} (readable : ∀ item ∈ items, isReadable item = true)
    (parted : isParted items = true) (clock : Clock instant) (apart : rest.head?.any Char.isDigit = false)
    (shown : Shown) :
    readItems shown (itemsText items instant ++ rest) items = some (items.foldl (after instant) shown, rest) := by
  induction items generalizing shown with
  | nil => rfl
  | cons item items ih =>
    obtain ⟨first, readable⟩ := List.forall_mem_cons.mp readable
    rw [isParted, Bool.and_eq_true, Bool.or_eq_true, bne_iff_ne] at parted
    obtain ⟨here, parted⟩ := parted
    have behind (year : shownBy item = some .year) :
        (itemsText items instant ++ rest).head?.any Char.isDigit = false :=
      startsApart_head (here.resolve_left (not_not_intro year)) apart
    have text : itemsText (item :: items) instant ++ rest =
        itemText instant item ++ (itemsText items instant ++ rest) := List.append_assoc _ _ _
    rw [text, readItems, readItem_text first clock behind]
    exact ih readable parted _

theorem foldl_after (items : List Item) (shown : Shown) (field : Field) :
    items.foldl (after instant) shown field =
      if some field ∈ items.map shownBy then value? instant field else shown field := by
  induction items generalizing shown with
  | nil => rfl
  | cons item items ih =>
    rw [List.foldl_cons, ih, List.map_cons]
    by_cases later : some field ∈ items.map shownBy
    · rw [if_pos later, if_pos (List.mem_cons_of_mem _ later)]
    · rw [if_neg later, after]
      by_cases here : shownBy item = some field
      · rw [if_pos here, if_pos (here ▸ List.mem_cons_self)]
      · rw [if_neg here, if_neg fun member => (List.mem_cons.mp member).elim (fun same => here same.symm) later]

/-- The fields that make up an instant. -/
def timeFields : List Field := [.year, .month, .dayOfMonth, .hour, .minute, .second]

theorem instant?_layout {items : List Item} (shown : Shown) (clock : Clock instant)
    (all : ∀ field ∈ timeFields, some field ∈ items.map shownBy) :
    (items.foldl (after instant) shown).instant? instant.fraction = some instant := by
  have put : ∀ field ∈ timeFields, items.foldl (after instant) shown field = value? instant field := by
    intro field member
    rw [foldl_after, if_pos (all field member)]
  simp only [timeFields, List.forall_mem_cons] at put
  obtain ⟨year, month, dayOfMonth, hour, minute, second, -⟩ := put
  obtain ⟨fraction, seconds⟩ := clock.whole
  have date := dayOfDate_ofDay (instant.seconds / secondsPerDay + epochDay)
  have day := secondOfDay_lt instant
  have clockTime : instant.hour * 3600 + instant.minute * 60 + instant.secondOfDay % 60 = instant.secondOfDay := by
    unfold Instant.hour Instant.minute
    omega
  have passed : (instant.secondOfDay : Int) = instant.seconds % secondsPerDay := by
    unfold Instant.secondOfDay secondsPerDay
    omega
  unfold Shown.instant?
  rw [year, month, dayOfMonth, hour, minute, second]
  simp only [value?, Option.bind_eq_bind, Option.bind_some, Int.toNat_natCast, Instant.date, date]
  refine congrArg some ?_
  rw [Instant.mk.injEq]
  constructor
  · unfold secondsPerDay at *
    omega
  · have inserted : ((instant.second : Int) / 60).toNat = instant.second / 60 := by omega
    rw [inserted]
    exact fraction

end MessagePress.Proofs.TimeReading
