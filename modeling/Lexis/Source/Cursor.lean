import Lexis.Source.Basic

/-!
# Cursors

A cursor stands between two characters of a source and knows its position. It moves one character at
a time (`Cursor.bump`), or over many at once (`Cursor.advance`, `Cursor.advanceTo?`).
-/

namespace Lexis

/-- A place in a source from which it is read on. -/
structure Cursor where
  source : Source
  /-- What is still to be read. -/
  rest : List SourceChar
  position : Position
deriving DecidableEq, Repr

/-- The cursor at the first character after the byte order mark. -/
def Source.cursor (s : Source) : Cursor where
  source := s
  rest := if s.isMarked then s.chars.drop 1 else s.chars
  position := ⟨s.markSize, 1, 1⟩

namespace Cursor

/-- The character to be read next. -/
def currentChar? (c : Cursor) : Option Char :=
  c.rest.head?.map SourceChar.char

/-- Whether everything has been read. -/
def atEnd (c : Cursor) : Bool :=
  c.rest.isEmpty

/-- The byte `ahead` bytes after the cursor, for a look at one of the next two; zero past the end.
-/
def byteAt (c : Cursor) (ahead : Nat) : UInt8 :=
  (Utf8.bytesOf (plainText (c.rest.take 2))).getD ahead 0

/-- The byte at the cursor, or zero at the end. -/
def current (c : Cursor) : UInt8 :=
  c.byteAt 0

/-- The byte after the one at the cursor, or zero past the end. -/
def peek (c : Cursor) : UInt8 :=
  c.byteAt 1

/-- Moves over one character. At the end the cursor stays. -/
def bump (c : Cursor) : Cursor :=
  match c.rest with
  | [] => c
  | next :: rest => { c with rest := rest, position := c.position.next next.char }

/-- Moves over `n` characters at once. -/
def advance (c : Cursor) (n : Nat) : Cursor :=
  { c with
    rest := c.rest.drop n
    position := c.position.locate (plainText (c.rest.take n)) }

/-- Moves to a byte offset, or to the end if the offset lies beyond it. A cursor already there or
further stays; an offset inside a character is refused. -/
def advanceTo? (c : Cursor) (offset : Nat) : Option Cursor :=
  let target := min offset c.source.size
  if target ≤ c.position.offset then some c
  else (Source.charsFilling? (target - c.position.offset) c.rest).map c.advance

/-- The position of a byte offset, counted on from a position at or before it. -/
def locate? (c : Cursor) (known : Position) (offset : Nat) : Option Position :=
  (c.source.slice? known.offset offset).map known.locate

/-- The text between two byte offsets. -/
def slice? (c : Cursor) (first last : Nat) : Option (List Char) :=
  c.source.slice? first last

/-- The text between a byte offset and the cursor. -/
def sliceFrom? (c : Cursor) (first : Nat) : Option (List Char) :=
  c.slice? first c.position.offset

/-- Number of bytes before the first place where `needle` stands in `bytes`. -/
def indexOfBytes? (needle : List UInt8) : List UInt8 → Option Nat
  | [] => if needle.isEmpty then some 0 else none
  | b :: rest =>
    if needle.isPrefixOf (b :: rest) then some 0 else (indexOfBytes? needle rest).map (· + 1)

/-- Byte offset of the first place at or after the cursor where `needle` stands. -/
def findBytes? (c : Cursor) (needle : List UInt8) : Option Nat :=
  (indexOfBytes? needle (Utf8.bytesOf (plainText c.rest))).map (c.position.offset + ·)

end Cursor

end Lexis
