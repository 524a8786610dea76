import Lexis.Unicode.Unprintable

/-!
# Quoting characters in messages

A message shows a character between quotes. What would not be seen there, or would end the
quotation, is written as an escape.
-/

namespace Lexis.Text

/-- Lower-case hexadecimal digits of a number, without leading zeros. -/
def hex (n : Nat) : List Char :=
  Nat.toDigits 16 n

/-- How a character is written between two quotes of the given kind. The other kind of quote stands
for itself. -/
def escape (quote c : Char) : List Char :=
  if c = '\x00' then ['\x5c', '0']
  else if c = '\t' then ['\x5c', 't']
  else if c = '\n' then ['\x5c', 'n']
  else if c = '\r' then ['\x5c', 'r']
  else if c = '\x5c' then ['\x5c', '\x5c']
  else if c = quote then ['\x5c', quote]
  else if Unicode.isUnprintable c then
    '\x5c' :: 'u' :: '\x7b' :: hex c.toNat ++ ['\x7d']
  else [c]

/-- A character between two quotes of the given kind. -/
def quoted (quote c : Char) : String :=
  String.ofList (quote :: escape quote c ++ [quote])

/-- A character between apostrophes. -/
def singleQuoted (c : Char) : String :=
  quoted '\x27' c

/-- A character between double quotes. -/
def doubleQuoted (c : Char) : String :=
  quoted '\x22' c

end Lexis.Text
