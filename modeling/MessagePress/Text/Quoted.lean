import MessagePress.Text.Printable

/-! Quoted text for diagnostics: a value is shown between quotes with its special
characters escaped, so that what a message quotes can be told from the message. -/

namespace MessagePress.Text

/-- Lowercase hexadecimal digits without leading zeros. -/
def hexDigits (code : Nat) : List Char := Nat.toDigits 16 code

def codeEscape (c : Char) : List Char :=
  ['\\', 'u', '{'] ++ hexDigits c.toNat ++ ['}']

/-- One character inside quotes; `quotes` are the quote characters that are escaped. -/
def quoteChar (quotes : List Char) (c : Char) : List Char :=
  if c = '\x00' then ['\\', '0']
  else if c = '\t' then ['\\', 't']
  else if c = '\r' then ['\\', 'r']
  else if c = '\n' then ['\\', 'n']
  else if c = '\\' || quotes.contains c then ['\\', c]
  else if extendsGrapheme c || !isPrintable c then codeEscape c
  else [c]

/-- A text in double quotes. -/
def quoted (text : String) : String :=
  String.ofList ('"' :: text.toList.flatMap (quoteChar ['"']) ++ ['"'])

/-- A character in single quotes. -/
def quotedChar (c : Char) : String :=
  String.ofList ('\x27' :: quoteChar ['\x27'] c ++ ['\x27'])

end MessagePress.Text
