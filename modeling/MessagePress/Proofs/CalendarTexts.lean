import Mathlib.Tactic.IntervalCases
import MessagePress.Proofs.GregorianDays
import MessagePress.Proofs.TimeReading

/-! Dates and times of day in the layouts that they are documented with. A layout is the text of one
moment, the second of January 2006, a Monday, at 15:04:05; each of its parts stands for the field
that it shows there. Times read by these layouts are days and times of the Gregorian calendar, and
those with a full date are the times that were written. -/

namespace MessagePress.Proofs.CalendarTexts
open MessagePress.Time CalendarDays GregorianDays TimeReading
open SignedDecimals (signAndDigits)

/-- The formats that show dates, each with the moment of all layouts in it. -/
def layouts : List (Format × String) :=
  [(.rfc822, "02 Jan 06 15:04 UTC"),
    (.rfc822z, "02 Jan 06 15:04 +0000"),
    (.rfc850, "Monday, 02-Jan-06 15:04:05 UTC"),
    (.rfc1123, "Mon, 02 Jan 2006 15:04:05 UTC"),
    (.rfc1123z, "Mon, 02 Jan 2006 15:04:05 +0000"),
    (.rfc3339, "2006-01-02T15:04:05Z"),
    (.ansic, "Mon Jan  2 15:04:05 2006"),
    (.unixDate, "Mon Jan  2 15:04:05 UTC 2006"),
    (.rubyDate, "Mon Jan 02 15:04:05 +0000 2006")]

/-- What the parts of a layout stand for. A number that is no part of the moment is fixed text. -/
def layoutItems : List Char → List Item
  | 'M' :: 'o' :: 'n' :: 'd' :: 'a' :: 'y' :: rest => .weekdayName :: layoutItems rest
  | 'M' :: 'o' :: 'n' :: rest => .weekdayAbbreviation :: layoutItems rest
  | 'J' :: 'a' :: 'n' :: rest => .monthAbbreviation :: layoutItems rest
  | '2' :: '0' :: '0' :: '6' :: rest => padded .year :: layoutItems rest
  | '0' :: '6' :: rest => padded .yearOfCentury :: layoutItems rest
  | '0' :: '1' :: rest => padded .month :: layoutItems rest
  | '0' :: '2' :: rest => padded .dayOfMonth :: layoutItems rest
  | ' ' :: '2' :: ' ' :: rest => .number .dayOfMonth .space :: .literal ' ' :: layoutItems rest
  | '1' :: '5' :: rest => padded .hour :: layoutItems rest
  | '0' :: '4' :: rest => padded .minute :: layoutItems rest
  | '0' :: '5' :: rest => padded .second :: layoutItems rest
  | 'U' :: 'T' :: 'C' :: rest => .zoneName :: layoutItems rest
  | '+' :: '0' :: '0' :: '0' :: '0' :: rest => .zoneOffset 1 false :: layoutItems rest
  | c :: rest => .literal c :: layoutItems rest
  | [] => []

def months : List String :=
  ["Jan", "Feb", "Mar", "Apr", "May", "Jun", "Jul", "Aug", "Sep", "Oct", "Nov", "Dec"]

def weekdays : List String :=
  ["Monday", "Tuesday", "Wednesday", "Thursday", "Friday", "Saturday", "Sunday"]

def readWord (names : List String) (text : List Char) : Option (Int × List Char) :=
  (names.zipIdx.find? fun named => named.1.toList.isPrefixOf text).map fun named =>
    ((named.2 : Int) + 1, text.drop named.1.toList.length)

/-- Years from zero to 9999 have four digits, and all others a sign and no fewer. -/
def readFullYear (text : List Char) : Option (Int × List Char) := do
  let (year, rest) ← readYear text
  let width := text.length - rest.length
  if text.head? = some '+' ∨ text.head? = some '-' then
    if (year < 0 ∨ 10000 ≤ year) ∧ 5 ≤ width then some (year, rest) else none
  else if width = 4 then some (year, rest) else none

/-- Reads two digits, the first of which may be a space in place of a zero. -/
def readPlaces (padding : Padding) (text : List Char) : Option (Int × List Char) :=
  if padding = .space ∧ text.head? = some '0' then none else readTwo padding text

def twoDigitFields : List Field := [.yearOfCentury, .month, .dayOfMonth, .hour, .minute, .second]

def readPart (shown : Shown) (text : List Char) : Item → Option (Shown × List Char)
  | .literal c => (readFixed [c] text).map (shown, ·)
  | .number field padding =>
    (if field = .year then readFullYear text
      else if twoDigitFields.contains field then readPlaces padding text
      else none).map fun (value, rest) => (shown.put field value, rest)
  | .monthAbbreviation => (readName months text).map fun (value, rest) => (shown.put .month value, rest)
  | .weekdayAbbreviation =>
    (readName weekdays text).map fun (value, rest) => (shown.put .weekdayFromMonday value, rest)
  | .weekdayName => (readWord weekdays text).map fun (value, rest) => (shown.put .weekdayFromMonday value, rest)
  | .zoneName => (readFixed "UTC".toList text).map (shown, ·)
  | .zoneOffset parts colons =>
    if parts = 1 ∧ colons = false then (readFixed "+0000".toList text).map (shown, ·) else none
  | .monthName | .dayHalf _ | .fraction _ _ | .shortFraction | .isoInstant => none

def readParts (shown : Shown) (text : List Char) : List Item → Option (Shown × List Char)
  | [] => some (shown, text)
  | item :: items => do
    let (shown, rest) ← readPart shown text item
    readParts shown rest items

/-- Reads a text by the layout of a format. -/
def readAs (format : Format) (text : List Char) : Option Shown := do
  let layout ← layouts.lookup format
  let (shown, rest) ← readParts .none text (layoutItems layout.toList)
  if rest.isEmpty then some shown else none

/-- The seconds from the start of 1970 to a date and a time of day. -/
def secondsOf? (shown : Shown) : Option Int := do
  let year ← shown .year
  let month ← shown .month
  let day ← shown .dayOfMonth
  let hour ← shown .hour
  let minute ← shown .minute
  let second ← shown .second
  if IsDate year month.toNat day.toNat ∧ 0 ≤ hour ∧ hour < 24 ∧ 0 ≤ minute ∧ minute < 60 ∧
      0 ≤ second ∧ second < 60 then
    some (daysToDate year month.toNat day.toNat * 86400 + hour * 3600 + minute * 60 + second)
  else none

/-- The same fields with the year of its century alone. -/
def inCentury (shown : Shown) : Shown
  | .year => none
  | .yearOfCentury => (shown .year).map (· % 100)
  | field => shown field

/-- The same date and time of day up to the minute, without the weekday. -/
def toMinute (shown : Shown) : Shown
  | .second | .weekdayFromMonday => none
  | field => shown field

def fields (instant : Instant) : Shown
  | .yearOfCentury => some (instant.date.year % 100)
  | field => value? instant field

def fieldOf : Item → Option Field
  | .weekdayName => some .weekdayFromMonday
  | item => shownBy item

def isPart : Item → Bool
  | .number field padding => field == .year && padding == .zero || twoDigitFields.contains field && padding != .none
  | .zoneOffset parts colons => parts == 1 && !colons
  | .literal _ | .monthAbbreviation | .weekdayAbbreviation | .weekdayName | .zoneName => true
  | .monthName | .dayHalf _ | .fraction _ _ | .shortFraction | .isoInstant => false

variable {instant : Instant} {shown : Shown} {rest : List Char} {item : Item} {items : List Item}

theorem paddedNumber_length (width : Nat) (plus : Bool) (value : Int) :
    width ≤ (paddedNumber .zero width plus value).length := by
  simp only [paddedNumber, List.length_append, List.length_replicate]
  omega

theorem yearText_ordinary {year : Int} (first : 0 ≤ year) (last : year < 10000) :
    (yearText .zero year).length = 4 ∧ ∀ c ∈ yearText .zero year, c.isDigit = true := by
  have unsigned : ¬year < 0 := Int.not_lt.mpr first
  have few : (Nat.toDigits 10 year.natAbs).length ≤ 4 :=
    (Nat.length_toDigits_le_iff (by decide) (by decide)).mpr (by omega)
  rw [yearText, if_pos ⟨first, last⟩]
  simp only [paddedNumber, unsigned, if_false, Bool.false_eq_true, List.nil_append, List.length_append,
    List.length_replicate, List.length_nil, Nat.zero_add]
  refine ⟨by omega, List.forall_mem_append.mpr ⟨fun c member => ?_, fun c => NumberTexts.toDigits_digit⟩⟩
  obtain ⟨-, rfl⟩ := List.mem_replicate.mp member
  rfl

theorem yearText_signed {year : Int} (far : year < 0 ∨ 10000 ≤ year) :
    5 ≤ (yearText .zero year).length ∧
      ((yearText .zero year).head? = some '+' ∨ (yearText .zero year).head? = some '-') := by
  have outside : ¬(0 ≤ year ∧ year < 10000) := by omega
  rw [yearText, if_neg outside]
  refine ⟨paddedNumber_length 5 true year, ?_⟩
  by_cases negative : year < 0
  · simp [paddedNumber, negative]
  · simp [paddedNumber, negative]

theorem readFullYear_text (year : Int) (apart : rest.head?.any Char.isDigit = false) :
    readFullYear (yearText .zero year ++ rest) = some (year, rest) := by
  have width : (yearText .zero year ++ rest).length - rest.length = (yearText .zero year).length := by
    rw [List.length_append, Nat.add_sub_cancel]
  rw [readFullYear, readYear_text year apart]
  simp only [Option.bind_eq_bind, Option.bind_some, width]
  by_cases far : year < 0 ∨ 10000 ≤ year
  · obtain ⟨wide, sign⟩ := yearText_signed far
    have marked : (yearText .zero year ++ rest).head? = some '+' ∨ (yearText .zero year ++ rest).head? = some '-' := by
      rcases sign with plus | minus
      · exact Or.inl (by rw [List.head?_append, plus]; rfl)
      · exact Or.inr (by rw [List.head?_append, minus]; rfl)
    rw [if_pos marked, if_pos ⟨far, wide⟩]
  · obtain ⟨four, digits⟩ := @yearText_ordinary year (by omega) (by omega)
    have bare : ¬((yearText .zero year ++ rest).head? = some '+' ∨ (yearText .zero year ++ rest).head? = some '-') := by
      obtain ⟨c, tail, same⟩ := List.exists_cons_of_length_pos (by omega : 0 < (yearText .zero year).length)
      have digit := digits c (same ▸ List.mem_cons_self)
      rw [same]
      rintro (plus | minus)
      · cases plus; cases digit
      · cases minus; cases digit
    rw [if_neg bare, if_pos four]

theorem readPlaces_text {padding : Padding} {value : Nat} (small : value < 100) (fixed : padding ≠ .none) :
    readPlaces padding (twoDigits padding value ++ rest) = some ((value : Int), rest) := by
  have spaced : ¬(padding = .space ∧ (twoDigits padding value ++ rest).head? = some '0') := by
    rintro ⟨rfl, zero⟩
    have byte : ((value : Int) % 256).toNat = value := by omega
    simp only [twoDigits, byte] at zero
    by_cases single : value / 10 = 0
    · simp [single] at zero
    · simp only [single, if_false, List.cons_append, List.head?_cons, Option.some.injEq] at zero
      have tens : ∀ tens < 10, tens ≠ 0 → Char.ofNat ('0'.toNat + tens) ≠ '0' := by decide
      exact tens _ (by omega) single zero
  rw [readPlaces, if_neg spaced, readTwo_text small fixed]

theorem readWord_weekday {index : Nat} (inside : index < 7) :
    readWord weekdays (nameAt weekdayNames index ++ rest) = some ((index : Int) + 1, rest) := by
  interval_cases index <;> rfl

theorem months_abbreviations : readName months = readName monthNames := by
  have same : abbreviations months = abbreviations monthNames := by decide
  funext text
  simp only [readName, same]

theorem weekdays_abbreviations : readName weekdays = readName weekdayNames := by
  have same : abbreviations weekdays = abbreviations weekdayNames := by decide
  funext text
  simp only [readName, same]

theorem second_lt (plain : instant.nanoseconds < nanosPerSecond) : instant.second < 60 := by
  rw [Instant.second, Nat.div_eq_of_lt plain]
  omega

def shownAfter (instant : Instant) (shown : Shown) (item : Item) : Shown := fun field =>
  if fieldOf item = some field then fields instant field else shown field

theorem put_shownAfter {field : Field} {value : Int} (shows : fieldOf item = some field)
    (known : fields instant field = some value) : shown.put field value = shownAfter instant shown item := by
  funext other
  rw [Shown.put, shownAfter, shows]
  by_cases same : other = field
  · rw [if_pos same, if_pos (congrArg some same.symm), same, known]
  · rw [if_neg same, if_neg fun equal => same (Option.some.inj equal).symm]

theorem readNumber_text {field : Field} {padding : Padding} (part : isPart (.number field padding) = true)
    (plain : instant.nanoseconds < nanosPerSecond)
    (apart : field = .year → rest.head?.any Char.isDigit = false) :
    readPart shown (fieldText field padding instant ++ rest) (.number field padding) =
      some (shownAfter instant shown (.number field padding), rest) := by
  have day := secondOfDay_lt instant
  have date : InCalendar instant.date := ofDay_inCalendar _
  have second := second_lt plain
  simp only [isPart, Bool.or_eq_true, Bool.and_eq_true, beq_iff_eq, bne_iff_ne] at part
  rcases part with ⟨rfl, rfl⟩ | ⟨two, fixed⟩
  · have read := readFullYear_text instant.date.year (apart rfl)
    rw [readPart, if_pos rfl, fieldText, read, ← put_shownAfter rfl rfl]
    rfl
  · have read {value : Nat} (known : fields instant field = some (value : Int)) (small : value < 100)
        (text : fieldText field padding instant = twoDigits padding value) (other : field ≠ .year) :
        readPart shown (fieldText field padding instant ++ rest) (.number field padding) =
          some (shownAfter instant shown (.number field padding), rest) := by
      rw [readPart, if_neg other, if_pos two, text, readPlaces_text small fixed, ← put_shownAfter rfl known]
      rfl
    simp only [twoDigitFields, List.contains_iff_mem, List.mem_cons, List.not_mem_nil, or_false] at two
    rcases two with rfl | rfl | rfl | rfl | rfl | rfl
    · have century : ((instant.date.year % 100).toNat : Int) = instant.date.year % 100 := by omega
      exact read (by rw [century]; rfl) (by omega) (by rw [century]; rfl) nofun
    · exact read rfl (Nat.lt_of_le_of_lt date.month_le (by decide)) rfl nofun
    · exact read rfl (Nat.lt_of_le_of_lt date.dayOfMonth_le (by decide)) rfl nofun
    · exact read rfl (by unfold Instant.hour; omega) rfl nofun
    · exact read rfl (by unfold Instant.minute; omega) rfl nofun
    · exact read rfl (by omega) rfl nofun

theorem readPart_text (part : isPart item = true) (plain : instant.nanoseconds < nanosPerSecond)
    (apart : fieldOf item = some .year → rest.head?.any Char.isDigit = false) :
    readPart shown (itemText instant item ++ rest) item = some (shownAfter instant shown item, rest) := by
  have date : InCalendar instant.date := ofDay_inCalendar _
  have kept {item : Item} (silent : fieldOf item = none) : shownAfter instant shown item = shown := by
    funext field
    rw [shownAfter, silent, if_neg (Option.some_ne_none field).symm]
  cases item with
  | literal c => rw [kept rfl, readPart, itemText, readFixed_text]; rfl
  | number field padding => exact readNumber_text part plain fun year => apart (congrArg some year)
  | monthAbbreviation =>
    have first := date.month_pos
    have index : ((instant.date.month - 1 : Nat) : Int) + 1 = instant.date.month := by omega
    rw [readPart, itemText, months_abbreviations,
      readName_text months_distinct (Nat.lt_of_lt_of_le (Nat.sub_one_lt_of_lt first) date.month_le),
      index, ← put_shownAfter rfl rfl]
    rfl
  | weekdayAbbreviation =>
    rw [readPart, itemText, weekdays_abbreviations, readName_text weekdays_distinct date.weekday_lt,
      ← put_shownAfter rfl rfl]
    rfl
  | weekdayName => rw [readPart, itemText, readWord_weekday date.weekday_lt, ← put_shownAfter rfl rfl]; rfl
  | zoneName => rw [kept rfl, readPart, itemText]; rfl
  | zoneOffset parts colons =>
    simp only [isPart, Bool.and_eq_true, beq_iff_eq, Bool.not_eq_true'] at part
    obtain ⟨rfl, rfl⟩ := part
    rw [kept rfl, readPart, itemText]
    rfl
  | _ => cases part

/-- A layout is read to the fields that its parts show. -/
theorem readParts_text (parts : ∀ item ∈ items, isPart item = true) (parted : isParted items = true)
    (plain : instant.nanoseconds < nanosPerSecond) :
    readParts shown (itemsText items instant) items = some (items.foldl (shownAfter instant) shown, []) := by
  induction items generalizing shown with
  | nil => rfl
  | cons item items ih =>
    obtain ⟨first, parts⟩ := List.forall_mem_cons.mp parts
    rw [isParted, Bool.and_eq_true, Bool.or_eq_true, bne_iff_ne] at parted
    obtain ⟨here, parted⟩ := parted
    have behind (year : fieldOf item = some .year) : (itemsText items instant).head?.any Char.isDigit = false := by
      have year : shownBy item = some .year := by
        cases item with
        | weekdayName => cases year
        | _ => exact year
      rw [← List.append_nil (itemsText items instant)]
      exact startsApart_head (here.resolve_left (not_not_intro year)) rfl
    have text : itemsText (item :: items) instant = itemText instant item ++ itemsText items instant := rfl
    rw [text, readParts, readPart_text first plain behind]
    exact ih parts parted

theorem foldl_shownAfter (items : List Item) (shown : Shown) (field : Field) :
    items.foldl (shownAfter instant) shown field =
      if field ∈ items.filterMap fieldOf then fields instant field else shown field := by
  induction items generalizing shown with
  | nil => rfl
  | cons item items ih =>
    have member : field ∈ (item :: items).filterMap fieldOf ↔
        fieldOf item = some field ∨ field ∈ items.filterMap fieldOf := by
      simp only [List.mem_filterMap, List.mem_cons, exists_eq_or_imp]
    rw [List.foldl_cons, ih]
    simp only [member, shownAfter]
    by_cases later : field ∈ items.filterMap fieldOf
    · simp [later]
    · simp [later]

def partsOf (format : Format) : List Item := layoutItems ((layouts.lookup format).getD "").toList

/-- The fields of an instant that a format shows. -/
def display (format : Format) (instant : Instant) : Shown := fun field =>
  if field ∈ (partsOf format).filterMap fieldOf then fields instant field else none

theorem text_parts {format : Format} (listed : format ∈ layouts.map Prod.fst) (instant : Instant) :
    format.text instant = itemsText (partsOf format) instant := by
  have same {items : List Item} (spelled : partsOf format = items) :
      itemsText items instant = itemsText (partsOf format) instant := by rw [spelled]
  simp only [layouts, List.map_cons, List.map_nil, List.mem_cons, List.not_mem_nil, or_false] at listed
  rcases listed with rfl | rfl | rfl | rfl | rfl | rfl | rfl | rfl | rfl
  all_goals exact same (by decide)

theorem readAs_text {format : Format} (listed : format ∈ layouts.map Prod.fst)
    (plain : instant.nanoseconds < nanosPerSecond) :
    readAs format (format.text instant) = some (display format instant) := by
  have known : ∀ format ∈ layouts.map Prod.fst, (layouts.lookup format).isSome ∧
      (∀ item ∈ partsOf format, isPart item = true) ∧ isParted (partsOf format) = true := by decide
  obtain ⟨found, parts, parted⟩ := known _ listed
  obtain ⟨layout, found⟩ := Option.isSome_iff_exists.mp found
  have items : layoutItems layout.toList = partsOf format := by rw [partsOf, found]; rfl
  have shown : (partsOf format).foldl (shownAfter instant) .none = display format instant :=
    funext fun field => foldl_shownAfter _ _ field
  rw [readAs, text_parts listed, found]
  simp only [Option.bind_eq_bind, Option.bind_some, items, readParts_text parts parted plain, shown,
    List.isEmpty_nil, if_true]

theorem secondsOf?_display {format : Format} (plain : instant.nanoseconds < nanosPerSecond)
    (all : ∀ field ∈ timeFields, field ∈ (partsOf format).filterMap fieldOf) :
    secondsOf? (display format instant) = some instant.seconds := by
  have put : ∀ field ∈ timeFields, display format instant field = fields instant field :=
    fun field member => if_pos (all field member)
  simp only [timeFields, List.forall_mem_cons] at put
  obtain ⟨year, month, dayOfMonth, hour, minute, second, -⟩ := put
  have date := ofDay_isDate (instant.seconds / secondsPerDay + epochDay)
  have days := daysToDate_ofDay (instant.seconds / secondsPerDay + epochDay)
  have day := secondOfDay_lt instant
  have within := second_lt plain
  have shownSecond : instant.second = instant.secondOfDay % 60 := by
    rw [Instant.second, Nat.div_eq_of_lt plain, Nat.add_zero]
  have clockTime : instant.hour * 3600 + instant.minute * 60 + instant.secondOfDay % 60 = instant.secondOfDay := by
    unfold Instant.hour Instant.minute
    omega
  have ranges : instant.hour < 24 ∧ instant.minute < 60 := by
    unfold Instant.hour Instant.minute
    omega
  have passed : (instant.secondOfDay : Int) = instant.seconds % secondsPerDay := by
    unfold Instant.secondOfDay secondsPerDay
    omega
  unfold secondsOf?
  rw [year, month, dayOfMonth, hour, minute, second]
  simp only [fields, value?, Option.bind_eq_bind, Option.bind_some, Int.toNat_natCast, Instant.date, days]
  rw [if_pos ⟨date, by omega⟩]
  refine congrArg some ?_
  unfold secondsPerDay at *
  omega

theorem weekday_display {format : Format}
    (shows : .weekdayFromMonday ∈ (partsOf format).filterMap fieldOf) (instant : Instant) :
    display format instant .weekdayFromMonday = some (weekdayOf (instant.seconds / 86400)) := by
  have weekday : ((instant.date.weekday : Nat) : Int) + 1 = weekdayOf (instant.seconds / 86400) := by
    simp only [Instant.date, Date.ofDay, secondsPerDay, epochDay, weekdayOf]
    omega
  rw [display, if_pos shows, ← weekday]
  rfl

/-- The formats that show the whole of a date and a time of day. -/
def completeFormats : List Format := [.rfc3339, .rfc1123, .rfc1123z, .ansic, .unixDate, .rubyDate]

/-- The formats that show a weekday. -/
def weekdayFormats : List Format := [.rfc1123, .rfc1123z, .ansic, .unixDate, .rubyDate, .rfc850]

/-- Outside of inserted seconds, a time that is shown by a complete format is read back to its seconds
by the layout of the format, and the weekday that is shown is that of the day. The other formats show
the same fields with the year of the century alone, and two of them stop at the minute. -/
theorem calendar_texts (plain : instant.nanoseconds < nanosPerSecond) :
    (∀ format ∈ completeFormats, (readAs format (format.text instant)).bind secondsOf? = some instant.seconds) ∧
    (∀ format ∈ weekdayFormats,
      (readAs format (format.text instant)).bind (· .weekdayFromMonday) =
        some (weekdayOf (instant.seconds / 86400))) ∧
    readAs .rfc850 (Format.text .rfc850 instant) =
      (readAs .rfc1123 (Format.text .rfc1123 instant)).map inCentury ∧
    ∀ format ∈ [Format.rfc822, Format.rfc822z], readAs format (format.text instant) =
      (readAs .rfc1123 (Format.text .rfc1123 instant)).map (toMinute ∘ inCentury) := by
  have complete : ∀ format ∈ completeFormats, format ∈ layouts.map Prod.fst ∧
      ∀ field ∈ timeFields, field ∈ (partsOf format).filterMap fieldOf := by decide
  have weekly : ∀ format ∈ weekdayFormats, format ∈ layouts.map Prod.fst ∧
      .weekdayFromMonday ∈ (partsOf format).filterMap fieldOf := by decide
  have full := @readAs_text instant .rfc1123 (by decide) plain
  have whole : (partsOf .rfc1123).filterMap fieldOf =
      [.weekdayFromMonday, .dayOfMonth, .month, .year, .hour, .minute, .second] := by decide
  refine ⟨fun format member => ?_, fun format member => ?_, ?_, ?_⟩
  · obtain ⟨listed, all⟩ := complete format member
    rw [readAs_text listed plain]
    exact secondsOf?_display plain all
  · obtain ⟨listed, shows⟩ := weekly format member
    rw [readAs_text listed plain]
    exact weekday_display shows instant
  · have century : (partsOf .rfc850).filterMap fieldOf =
        [.weekdayFromMonday, .dayOfMonth, .month, .yearOfCentury, .hour, .minute, .second] := by decide
    rw [readAs_text (by decide) plain, full]
    refine congrArg some (funext fun field => ?_)
    unfold display
    rw [century, whole]
    cases field <;> rfl
  · intro format member
    have short : ∀ format ∈ [Format.rfc822, .rfc822z], format ∈ layouts.map Prod.fst ∧
        (partsOf format).filterMap fieldOf = [.dayOfMonth, .month, .yearOfCentury, .hour, .minute] := by decide
    obtain ⟨listed, minutes⟩ := short format member
    rw [readAs_text listed plain, full]
    refine congrArg some (funext fun field => ?_)
    unfold display
    rw [minutes, whole]
    cases field <;> rfl

/-- The last second before the year zero lies in the year before it, which has a sign. -/
theorem calendar_texts_signed : 0 < nanosPerSecond ∧
    String.ofList (Format.text .ansic ⟨-62167219201, 0⟩) = "Fri Dec 31 23:59:59 -0001" ∧
    (readAs .ansic (Format.text .ansic ⟨-62167219201, 0⟩)).bind secondsOf? = some (-62167219201) ∧
    (readAs .ansic (Format.text .ansic ⟨-62167219201, 0⟩)).bind (· .weekdayFromMonday) = some 5 := by
  obtain ⟨seconds, weekday, -⟩ := @calendar_texts ⟨-62167219201, 0⟩ (by decide)
  exact ⟨by decide, by decide, seconds .ansic (by decide), weekday .ansic (by decide)⟩

/-- The layouts are the texts of one moment. -/
example : ∀ listed ∈ layouts, String.ofList (listed.1.text ⟨1136214245, 0⟩) = listed.2 := by decide

end MessagePress.Proofs.CalendarTexts
