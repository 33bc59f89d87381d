import MessagePress.Time.Pattern

/-! The formats a time can be asked for: a few by name, in any case of letters, and every
other text as a pattern. -/

namespace MessagePress.Time

inductive Format
  | rfc822
  | rfc822z
  | rfc850
  | rfc1123
  | rfc1123z
  | rfc3339
  | rfc3339nano
  | unix
  | unixMilli
  | unixNano
  | ansic
  | unixDate
  | rubyDate
  | custom (pattern : String)
  deriving DecidableEq, Repr

namespace Format

def named : List (String × Format) :=
  [("RFC822", rfc822), ("RFC822Z", rfc822z), ("RFC850", rfc850), ("RFC1123", rfc1123),
    ("RFC1123Z", rfc1123z), ("RFC3339", rfc3339), ("RFC3339NANO", rfc3339nano), ("UNIX", unix),
    ("UNIXMILLI", unixMilli), ("UNIXNANO", unixNano), ("ANSIC", ansic), ("UNIXDATE", unixDate),
    ("RUBYDATE", rubyDate)]

/-- The format of that name in any case of ASCII letters, or else the pattern itself. -/
def ofText (text : String) : Format :=
  (named.lookup (text.map Char.toUpper)).getD (custom text)

/-- `02 Jan 06 15:04 ` -/
def rfc822Items : List Item :=
  [padded .dayOfMonth, .literal ' ', .monthAbbreviation, .literal ' ', padded .yearOfCentury,
    .literal ' '] ++ clockMinutes ++ [.literal ' ']

/-- `Mon, 02 Jan 2006 15:04:05 ` -/
def rfc1123Items : List Item :=
  [.weekdayAbbreviation, .literal ',', .literal ' ', padded .dayOfMonth, .literal ' ',
    .monthAbbreviation, .literal ' ', padded .year, .literal ' '] ++ clock ++ [.literal ' ']

/-- `Monday, 02-Jan-06 15:04:05 UTC` -/
def rfc850Items : List Item :=
  [.weekdayName, .literal ',', .literal ' ', padded .dayOfMonth, .literal '-', .monthAbbreviation,
    .literal '-', padded .yearOfCentury, .literal ' '] ++ clock ++ [.literal ' ', .zoneName]

/-- `2006-01-02T15:04:05` -/
def rfc3339Items : List Item := isoDate ++ [.literal 'T'] ++ clock

/-- `Mon Jan  2 15:04:05 `, the day padded as given. -/
def dateFirstItems (padding : Padding) : List Item :=
  [.weekdayAbbreviation, .literal ' ', .monthAbbreviation, .literal ' ',
    .number .dayOfMonth padding, .literal ' '] ++ clock ++ [.literal ' ']

/-- The fraction of a second without its trailing zeros. The digits are those of the full
count of nanoseconds, which has ten of them in a leap second. -/
def trimmedFraction (nanoseconds : Nat) : List Char :=
  let digits := paddedNumber .zero 9 false nanoseconds
  match (digits.reverse.dropWhile (· == '0')).reverse with
  | [] => []
  | kept => '.' :: kept

def decimal (value : Int) : List Char := paddedNumber .none 0 false value

/-- Nanoseconds since the epoch. -/
def nanosSinceEpoch (instant : Instant) : Int :=
  instant.seconds * nanosPerSecond + instant.nanoseconds

/-- Milliseconds since the epoch, rounded down. -/
def millisSinceEpoch (instant : Instant) : Int :=
  instant.seconds * 1000 + instant.nanoseconds / 1000000

def text (format : Format) (instant : Instant) : List Char :=
  match format with
  | rfc822 => itemsText (rfc822Items ++ [.zoneName]) instant
  | rfc822z => itemsText (rfc822Items ++ [.zoneOffset 1 false]) instant
  | rfc850 => itemsText rfc850Items instant
  | rfc1123 => itemsText (rfc1123Items ++ [.zoneName]) instant
  | rfc1123z => itemsText (rfc1123Items ++ [.zoneOffset 1 false]) instant
  | rfc3339 => itemsText (rfc3339Items ++ [.literal 'Z']) instant
  | rfc3339nano =>
    itemsText rfc3339Items instant ++ trimmedFraction instant.nanoseconds ++ ['Z']
  | unix => decimal instant.seconds
  | unixMilli => decimal (millisSinceEpoch instant)
  | unixNano => decimal (nanosSinceEpoch instant)
  | ansic => itemsText (dateFirstItems .space ++ [padded .year]) instant
  | unixDate =>
    itemsText (dateFirstItems .space ++ [.zoneName, .literal ' ', padded .year]) instant
  | rubyDate =>
    itemsText (dateFirstItems .zero ++ [.zoneOffset 1 false, .literal ' ', padded .year]) instant
  | custom pattern =>
    match items? pattern.toList with
    | some items => itemsText items instant
    | none => pattern.toList

end Format

end MessagePress.Time
