/-!
# Characters of a source

A source is made of characters that were encoded well, and of replacement characters that stand for
bytes that were not. Keeping the bytes in the character means that nothing is lost in decoding.
-/

namespace Lexis

/-- One character of a source text. -/
inductive SourceChar where
  /-- A character that the source holds. -/
  | valid (c : Char)
  /-- A replacement character, standing for bytes that are no UTF-8. -/
  | replaced (bytes : List UInt8)
deriving DecidableEq, Repr

namespace SourceChar

/-- The character that stands for bytes that are no UTF-8. -/
def replacement : Char := '\uFFFD'

/-- The character that the text has here. -/
def char : SourceChar → Char
  | valid c => c
  | replaced _ => replacement

/-- Number of bytes that the character takes up in the decoded text. -/
def size (c : SourceChar) : Nat :=
  c.char.utf8Size

/-- The bytes that were read for the character. -/
def bytes : SourceChar → List UInt8
  | valid c => String.utf8EncodeChar c
  | replaced bytes => bytes

end SourceChar

/-- The characters that a stretch of source shows. -/
def plainText (source : List SourceChar) : List Char :=
  source.map SourceChar.char

end Lexis
