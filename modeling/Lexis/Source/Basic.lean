import Lexis.Source.Decoding
import Lexis.Source.Position

/-!
# Source texts

A source is its list of characters. Its size, its byte order mark, what went wrong in decoding it
and its padded bytes are all read off that list.
-/

namespace Lexis

/-- What an encoding issue is about. -/
inductive IssueKind where
  /-- A byte order mark at the very start. -/
  | byteOrderMark
  /-- Bytes that are no UTF-8. -/
  | invalidUtf8
deriving DecidableEq, Repr

/-- Something noteworthy about how a source was encoded. -/
structure Issue where
  kind : IssueKind
  /-- Byte offset in the decoded text. -/
  position : Nat
  /-- Number of bytes that were read for it. -/
  length : Nat
deriving DecidableEq, Repr

/-- A text to be read. -/
structure Source where
  chars : List SourceChar
deriving DecidableEq, Repr

namespace Source

/-- The source that holds exactly the given text. -/
def ofText (text : List Char) : Source :=
  ⟨text.map .valid⟩

/-- The source that holds exactly the given string. -/
def ofString (text : String) : Source :=
  ofText text.toList

/-- The source that is read from bytes. -/
def ofBytes (bytes : List UInt8) : Source :=
  ⟨Utf8.decode bytes⟩

/-- The decoded text. -/
def text (s : Source) : List Char :=
  plainText s.chars

/-- Number of bytes of the decoded text. -/
def size (s : Source) : Nat :=
  byteSize s.text

/-- The character that marks a text as UTF-8 when it comes first. -/
def byteOrderMark : Char := '\uFEFF'

/-- Whether the first character is a byte order mark. -/
def isMarked (s : Source) : Bool :=
  s.chars.head? == some (.valid byteOrderMark)

/-- Number of bytes of the byte order mark, or zero if there is none. -/
def markSize (s : Source) : Nat :=
  if s.isMarked then byteOrderMark.utf8Size else 0

/-- The replaced characters of a stretch of source that starts at `offset`. -/
def invalidFrom (offset : Nat) : List SourceChar → List Issue
  | [] => []
  | .valid c :: rest => invalidFrom (offset + c.utf8Size) rest
  | .replaced bytes :: rest =>
    ⟨.invalidUtf8, offset, bytes.length⟩ ::
      invalidFrom (offset + SourceChar.replacement.utf8Size) rest

/-- Everything noteworthy about the encoding, in order of position. -/
def issues (s : Source) : List Issue :=
  (if s.isMarked then [⟨.byteOrderMark, 0, byteOrderMark.utf8Size⟩] else []) ++
    invalidFrom 0 s.chars

/-- Number of bytes of the padded text: whole blocks of 64 bytes, with two to spare at the least. -/
def paddedSize (s : Source) : Nat :=
  (s.size + 2 + 63) / 64 * 64

/-- The bytes of the decoded text, followed by zeros. -/
def padded (s : Source) : List UInt8 :=
  Utf8.bytesOf s.text ++ List.replicate (s.paddedSize - s.size) 0

/-- Number of leading characters that take up exactly `bytes` bytes, if such a number exists. -/
def charsFilling? : Nat → List SourceChar → Option Nat
  | 0, _ => some 0
  | _ + 1, [] => none
  | bytes + 1, c :: rest =>
    if c.size ≤ bytes + 1 then (charsFilling? (bytes + 1 - c.size) rest).map (· + 1) else none

/-- The text between two byte offsets, if they are in order and both stand between characters. -/
def slice? (s : Source) (first last : Nat) : Option (List Char) :=
  if first ≤ last then do
    let before ← charsFilling? first s.chars
    let rest := s.chars.drop before
    let count ← charsFilling? (last - first) rest
    return plainText (rest.take count)
  else none

end Source

end Lexis
