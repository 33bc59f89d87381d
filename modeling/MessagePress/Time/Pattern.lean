import MessagePress.Time.Calendar

/-! Date and time patterns with percent directives. A pattern is read into items first; a
pattern with an unknown or unfinished directive has no items, and is then shown as it
stands by those who use it. -/

namespace MessagePress.Time

inductive Padding
  | none
  | space
  | zero
  deriving DecidableEq, Repr

/-- What a numeric directive shows. -/
inductive Field
  | year | century | yearOfCentury | isoYear | isoYearOfCentury
  | quarter | month | dayOfMonth | ordinal
  | weekFromSunday | weekFromMonday | isoWeek
  | weekdayFromSunday | weekdayFromMonday
  | hour | hour12 | minute | second | nanosecond | timestamp
  deriving DecidableEq, Repr

inductive Item
  | literal (c : Char)
  | number (field : Field) (padding : Padding)
  | monthName
  | monthAbbreviation
  | weekdayName
  | weekdayAbbreviation
  | dayHalf (upper : Bool)
  /-- The fraction of the second to so many places, with or without its point. -/
  | fraction (places : Nat) (point : Bool)
  /-- The fraction in three, six or nine places, left out when it is zero. -/
  | shortFraction
  | zoneName
  /-- The offset from UTC, in hours and then so many further parts behind colons. -/
  | zoneOffset (parts : Nat) (colons : Bool)
  | isoInstant
  deriving DecidableEq, Repr

/-- The directives that show a number, each with the padding it has by itself. -/
def numberDirective? : Char → Option (Field × Padding)
  | 'Y' => some (.year, .zero)
  | 'C' => some (.century, .zero)
  | 'y' => some (.yearOfCentury, .zero)
  | 'G' => some (.isoYear, .zero)
  | 'g' => some (.isoYearOfCentury, .zero)
  | 'q' => some (.quarter, .none)
  | 'm' => some (.month, .zero)
  | 'd' => some (.dayOfMonth, .zero)
  | 'e' => some (.dayOfMonth, .space)
  | 'j' => some (.ordinal, .zero)
  | 'U' => some (.weekFromSunday, .zero)
  | 'W' => some (.weekFromMonday, .zero)
  | 'V' => some (.isoWeek, .zero)
  | 'w' => some (.weekdayFromSunday, .none)
  | 'u' => some (.weekdayFromMonday, .none)
  | 'H' => some (.hour, .zero)
  | 'k' => some (.hour, .space)
  | 'I' => some (.hour12, .zero)
  | 'l' => some (.hour12, .space)
  | 'M' => some (.minute, .zero)
  | 'S' => some (.second, .zero)
  | 'f' => some (.nanosecond, .zero)
  | 's' => some (.timestamp, .none)
  | _ => none

def padded (field : Field) : Item := .number field .zero

/-- `HH:MM` -/
def clockMinutes : List Item := [padded .hour, .literal ':', padded .minute]

/-- `HH:MM:SS` -/
def clock : List Item := clockMinutes ++ [.literal ':', padded .second]

/-- `YYYY-MM-DD` -/
def isoDate : List Item :=
  [padded .year, .literal '-', padded .month, .literal '-', padded .dayOfMonth]

/-- `MM/DD/YY` -/
def slashedDate : List Item :=
  [padded .month, .literal '/', padded .dayOfMonth, .literal '/', padded .yearOfCentury]

/-- The directives of one letter that show no single number. -/
def namedDirective? : Char → Option (List Item)
  | 'b' | 'h' => some [.monthAbbreviation]
  | 'B' => some [.monthName]
  | 'a' => some [.weekdayAbbreviation]
  | 'A' => some [.weekdayName]
  | 'p' => some [.dayHalf true]
  | 'P' => some [.dayHalf false]
  | 'Z' => some [.zoneName]
  | 'z' => some [.zoneOffset 1 false]
  | '+' => some [.isoInstant]
  | 'D' | 'x' => some slashedDate
  | 'F' => some isoDate
  | 'R' => some clockMinutes
  | 'T' | 'X' => some clock
  | 'r' => some ([padded .hour12, .literal ':', padded .minute, .literal ':', padded .second,
      .literal ' ', .dayHalf true])
  | 'c' => some ([.weekdayAbbreviation, .literal ' ', .monthAbbreviation, .literal ' ',
      .number .dayOfMonth .space, .literal ' '] ++ clock ++ [.literal ' ', padded .year])
  | 'v' => some [.number .dayOfMonth .space, .literal '-', .monthAbbreviation, .literal '-',
      padded .year]
  | 'n' => some [.literal '\n']
  | 't' => some [.literal '\t']
  | '%' => some [.literal '%']
  | _ => none

def placesDigit? : Char → Option Nat
  | '3' => some 3
  | '6' => some 6
  | '9' => some 9
  | _ => none

/-- The items of one directive, read behind its percent sign, and what follows it. Only a
directive that shows a single number takes a padding mark. -/
def directive? : List Char → Option (List Item × List Char)
  | '-' :: c :: rest => (numberDirective? c).map fun found => ([.number found.1 .none], rest)
  | '_' :: c :: rest => (numberDirective? c).map fun found => ([.number found.1 .space], rest)
  | '0' :: c :: rest => (numberDirective? c).map fun found => ([.number found.1 .zero], rest)
  | ':' :: ':' :: ':' :: 'z' :: rest => some ([.zoneOffset 0 true], rest)
  | ':' :: ':' :: 'z' :: rest => some ([.zoneOffset 2 true], rest)
  | ':' :: 'z' :: rest => some ([.zoneOffset 1 true], rest)
  | '.' :: 'f' :: rest => some ([.shortFraction], rest)
  | '.' :: c :: 'f' :: rest => (placesDigit? c).map fun places => ([.fraction places true], rest)
  | c :: rest =>
    match numberDirective? c, namedDirective? c, placesDigit? c, rest with
    | some (field, padding), _, _, _ => some ([.number field padding], rest)
    | none, some items, _, _ => some (items, rest)
    | none, none, some places, 'f' :: rest => some ([.fraction places false], rest)
    | none, none, _, _ => none
  | [] => none

/-- Reads at most `steps` directives and characters. -/
def readItems? : Nat → List Char → Option (List Item)
  | _, [] => some []
  | 0, _ => none
  | steps + 1, '%' :: rest => do
    let (items, rest) ← directive? rest
    return items ++ (← readItems? steps rest)
  | steps + 1, c :: rest => do
    return .literal c :: (← readItems? steps rest)

/-- The items of a pattern. -/
def items? (pattern : List Char) : Option (List Item) := readItems? pattern.length pattern

def spaces (count : Nat) : List Char := List.replicate count ' '

/-- A number padded to a width that counts its sign. -/
def paddedNumber (padding : Padding) (width : Nat) (plus : Bool) (value : Int) : List Char :=
  let sign := if value < 0 then ['-'] else if plus then ['+'] else []
  let digits := Nat.toDigits 10 value.natAbs
  let missing := width - (sign.length + digits.length)
  match padding with
  | .none => sign ++ digits
  | .space => spaces missing ++ sign ++ digits
  | .zero => sign ++ List.replicate missing '0' ++ digits

/-- Years of more or fewer than four digits, and years below zero, carry a sign. -/
def yearText (padding : Padding) (year : Int) : List Char :=
  if 0 ≤ year ∧ year < 10000 then paddedNumber padding 4 false year
  else paddedNumber padding 5 true year

/-- A number below one hundred. Centuries of far years go beyond that: they are taken
modulo 256, and the tens run on through the characters behind the digits. -/
def twoDigits (padding : Padding) (value : Int) : List Char :=
  let value := (value % 256).toNat
  let tens := value / 10
  let first := match padding with
    | .none => if tens = 0 then [] else [Char.ofNat ('0'.toNat + tens)]
    | .space => if tens = 0 then [' '] else [Char.ofNat ('0'.toNat + tens)]
    | .zero => [Char.ofNat ('0'.toNat + tens)]
  first ++ [Char.ofNat ('0'.toNat + value % 10)]

def fieldText (field : Field) (padding : Padding) (instant : Instant) : List Char :=
  let date := instant.date
  match field with
  | .year => yearText padding date.year
  | .century => twoDigits padding (date.year / 100)
  | .yearOfCentury => twoDigits padding (date.year % 100)
  | .isoYear => yearText padding date.isoYear
  | .isoYearOfCentury => twoDigits padding (date.isoYear % 100)
  | .quarter => Nat.toDigits 10 date.quarter
  | .month => twoDigits padding date.month
  | .dayOfMonth => twoDigits padding date.dayOfMonth
  | .ordinal => paddedNumber padding 3 false date.ordinal
  | .weekFromSunday => twoDigits padding (date.weeksFrom 6)
  | .weekFromMonday => twoDigits padding (date.weeksFrom 0)
  | .isoWeek => twoDigits padding date.isoWeek
  | .weekdayFromSunday => Nat.toDigits 10 ((date.weekday + 1) % 7)
  | .weekdayFromMonday => Nat.toDigits 10 (date.weekday + 1)
  | .hour => twoDigits padding instant.hour
  | .hour12 => twoDigits padding instant.hour12
  | .minute => twoDigits padding instant.minute
  | .second => twoDigits padding instant.second
  | .nanosecond => paddedNumber padding 9 false instant.fraction
  | .timestamp => paddedNumber padding 9 false instant.seconds

def monthNames : List String :=
  ["January", "February", "March", "April", "May", "June", "July", "August", "September",
    "October", "November", "December"]

def weekdayNames : List String :=
  ["Monday", "Tuesday", "Wednesday", "Thursday", "Friday", "Saturday", "Sunday"]

def nameAt (names : List String) (index : Nat) : List Char := (names.getD index "").toList

/-- So many leading digits of the nine digits of a fraction. -/
def fractionDigits (places fraction : Nat) : List Char :=
  paddedNumber .zero places false (fraction / Nat.pow 10 (9 - places))

def shortFractionText (fraction : Nat) : List Char :=
  if fraction = 0 then []
  else if fraction % 1000000 = 0 then '.' :: fractionDigits 3 fraction
  else if fraction % 1000 = 0 then '.' :: fractionDigits 6 fraction
  else '.' :: fractionDigits 9 fraction

/-- The zone is always UTC. -/
def zoneOffsetText (parts : Nat) (colons : Bool) : List Char :=
  let part := if colons then [':', '0', '0'] else ['0', '0']
  ['+', '0', '0'] ++ (List.replicate parts part).flatten

def isoInstantText (instant : Instant) : List Char :=
  let date := instant.date
  yearText .zero date.year ++ ['-'] ++ twoDigits .zero date.month ++ ['-'] ++
    twoDigits .zero date.dayOfMonth ++ ['T'] ++ twoDigits .zero instant.hour ++ [':'] ++
    twoDigits .zero instant.minute ++ [':'] ++ twoDigits .zero instant.second ++
    shortFractionText instant.fraction ++ zoneOffsetText 1 true

def itemText (instant : Instant) : Item → List Char
  | .literal c => [c]
  | .number field padding => fieldText field padding instant
  | .monthName => nameAt monthNames (instant.date.month - 1)
  | .monthAbbreviation => (nameAt monthNames (instant.date.month - 1)).take 3
  | .weekdayName => nameAt weekdayNames instant.date.weekday
  | .weekdayAbbreviation => (nameAt weekdayNames instant.date.weekday).take 3
  | .dayHalf true => if instant.isAfternoon then ['P', 'M'] else ['A', 'M']
  | .dayHalf false => if instant.isAfternoon then ['p', 'm'] else ['a', 'm']
  | .fraction places true => '.' :: fractionDigits places instant.fraction
  | .fraction places false => fractionDigits places instant.fraction
  | .shortFraction => shortFractionText instant.fraction
  | .zoneName => ['U', 'T', 'C']
  | .zoneOffset parts colons => zoneOffsetText parts colons
  | .isoInstant => isoInstantText instant

def itemsText (items : List Item) (instant : Instant) : List Char :=
  items.flatMap (itemText instant)

end MessagePress.Time
