/-! The two classes of blank characters in use, and trimming by a class. Calls and
placeholders know ASCII blanks alone; configuration values are trimmed by the wider
Unicode property. -/

namespace MessagePress.Text

/-- Space, tab, line feed, form feed and carriage return. -/
def isAsciiBlank (c : Char) : Bool :=
  c == ' ' || c == '\t' || c == '\n' || c == '\x0c' || c == '\r'

/-- The Unicode property `White_Space`. -/
def isBlank (c : Char) : Bool :=
  let code := c.toNat
  (9 ≤ code && code ≤ 13) || code == 0x20 || code == 0x85 || code == 0xa0 || code == 0x1680 ||
    (0x2000 ≤ code && code ≤ 0x200a) || code == 0x2028 || code == 0x2029 || code == 0x202f ||
    code == 0x205f || code == 0x3000

def trimStart (blank : Char → Bool) (text : List Char) : List Char :=
  text.dropWhile blank

def trimEnd (blank : Char → Bool) (text : List Char) : List Char :=
  (text.reverse.dropWhile blank).reverse

def trim (blank : Char → Bool) (text : List Char) : List Char :=
  trimEnd blank (trimStart blank text)

end MessagePress.Text
