/-!
# Positions in a source text

A position is a byte offset together with the line and column a reader would count to. There are two
ways to move one: over a single character (`Position.next`), and over a stretch of text at once
(`Position.locate`), which counts line ends instead of stepping.
-/

namespace Lexis

/-- A place in a source: bytes before it, and line and column, both counted in characters from
one. -/
structure Position where
  offset : Nat
  line : Nat
  column : Nat
deriving DecidableEq, Repr

/-- Number of bytes that characters take up in UTF-8. -/
def byteSize : List Char → Nat
  | [] => 0
  | c :: rest => c.utf8Size + byteSize rest

namespace Position

/-- The first character of a source. -/
def start : Position := ⟨0, 1, 1⟩

instance : Inhabited Position := ⟨start⟩

/-- The position just after character `c`, which stands at `p`. -/
def next (p : Position) (c : Char) : Position :=
  if c = '\n' then ⟨p.offset + c.utf8Size, p.line + 1, 1⟩
  else ⟨p.offset + c.utf8Size, p.line, p.column + 1⟩

/-- The position just after `text`, which starts at `p`, found by counting its line ends and the
characters after the last of them. -/
def locate (p : Position) (text : List Char) : Position :=
  let breaks := text.count '\n'
  { offset := p.offset + byteSize text
    line := p.line + breaks
    column :=
      if breaks = 0 then p.column + text.length
      else (text.reverse.takeWhile (· != '\n')).length + 1 }

/-- The position `n` characters further on in text that is plain ASCII without line ends. -/
def across (p : Position) (n : Nat) : Position :=
  ⟨p.offset + n, p.line, p.column + n⟩

/-- Positions are ordered by offset, then line, then column. -/
instance : Ord Position :=
  ⟨fun p q =>
    (compare p.offset q.offset).then ((compare p.line q.line).then (compare p.column q.column))⟩

/-- Line and column, as messages show them. -/
def render (p : Position) : String :=
  toString p.line ++ ":" ++ toString p.column

end Position

end Lexis
