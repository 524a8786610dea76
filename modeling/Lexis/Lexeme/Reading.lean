import Lexis.Lexeme.Basic
import Lexis.Source.Cursor

/-!
# Reading a source

A reading is a cursor together with the reports made on the way. Two ways lead over a stretch of
source: character by character (`Reading.bumps`), and at once (`Reading.skip`), which looks for
faulty characters first and moves then. `Reading.consume` leads over a lexeme and reports what is
wrong with it; how far it leads is `consume_rest`.
-/

namespace Lexis

namespace SourceChar

/-- Whether the character is a NUL that the source holds. -/
def isNul (c : SourceChar) : Bool :=
  c == .valid '\x00'

/-- Whether the character stands for bytes that are no UTF-8. -/
def isReplaced : SourceChar → Bool
  | valid _ => false
  | replaced _ => true

/-- What is wrong with a character wherever it stands. -/
def fault? (c : SourceChar) : Option Fault :=
  if c.isNul then some .nulCharacter else if c.isReplaced then some .invalidUtf8 else none

/-- Indices of the characters with a property. -/
def indicesOf (holds : SourceChar → Bool) (chunk : List SourceChar) : List Nat :=
  (chunk.zipIdx.filter fun (c, _) => holds c).map fun (_, index) => index

/-- The faulty characters of a stretch of source, by index: the NULs and the replaced characters,
each found in a search of its own, put in order. -/
def faultsWithin (chunk : List SourceChar) : List (Nat × Fault) :=
  let nuls := (indicesOf isNul chunk).map fun index => (index, Fault.nulCharacter)
  let invalid := (indicesOf isReplaced chunk).map fun index => (index, Fault.invalidUtf8)
  (nuls ++ invalid).mergeSort fun a b => a.1 ≤ b.1

end SourceChar

/-- A cursor that has come some way, and the reports made since it started. -/
structure Reading where
  cursor : Cursor
  reports : Array Report
deriving DecidableEq, Repr

namespace Reading

/-- A reading that starts at a cursor. -/
def ofCursor (c : Cursor) : Reading := ⟨c, #[]⟩

/-- What is still to be read. -/
abbrev rest (r : Reading) : List SourceChar := r.cursor.rest

/-- Where the reading has come to. -/
abbrev position (r : Reading) : Position := r.cursor.position

/-- Reports a fault at a given place. -/
def reportAt (r : Reading) (position : Position) (fault : Fault) : Reading :=
  { r with reports := r.reports.push ⟨position, fault⟩ }

/-- Reports a fault here. -/
def report (r : Reading) (fault : Fault) : Reading :=
  r.reportAt r.position fault

/-- Reads one character and reports it if it is faulty. At the end nothing happens. -/
def bump (r : Reading) : Reading :=
  match r.rest.head?.bind SourceChar.fault? with
  | some fault => { r.report fault with cursor := r.cursor.bump }
  | none => { r with cursor := r.cursor.bump }

/-- Reads `n` characters one after the other. -/
def bumps (r : Reading) : Nat → Reading
  | 0 => r
  | n + 1 => r.bump.bumps n

/-- Reads `n` characters at once, and reports the faulty ones. -/
def skip (r : Reading) (n : Nat) : Reading :=
  let chunk := r.rest.take n
  let reports := (SourceChar.faultsWithin chunk).map fun (index, fault) =>
    Report.mk (r.position.locate (plainText (chunk.take index))) fault
  ⟨r.cursor.advance n, r.reports ++ reports⟩

/-- Reads the whitespace before a lexeme. -/
def skipWhitespace (config : Config) (r : Reading) : Reading :=
  r.bumps (r.rest.takeWhile fun c => config.isWhitespace c.char).length

/-- Reads an item of a quoted literal. An escape that breaks off is reported where it does. -/
def consumeItem (r : Reading) : QuotedItem → Reading
  | .plain _ => r.bump
  | .escape e =>
    let r := r.bump.bumps e.body.length
    if e.complete then r else r.report .invalidEscape

/-- Reads a quoted literal. -/
def consumeQuoted (r : Reading) (q : Quoted) : Reading :=
  let r := q.items.foldl consumeItem r.bump
  if q.closed then r.bump else r.report .literalNotTerminated

/-- Reads text up to a mark and the mark itself. Without a mark there is a fault at the end. -/
def consumeEnclosed (r : Reading) (mark : List Char) (fault : Fault) (e : Enclosed) : Reading :=
  let r := r.skip (e.charsThrough mark).length
  if e.closed then r else r.report fault

/-- Reads a number. Its characters stand on one line and take up a byte each. -/
def consumeNumber (r : Reading) (n : Number) : Reading :=
  n.faults.foldl (fun after (index, fault) => after.reportAt (r.position.across index) fault)
    (r.bumps n.text.length)

/-- Reads the lexeme that the rest starts with. -/
def consume (r : Reading) : Lexeme → Reading
  | .identifier chars => r.bumps chars.length
  | .number n => r.consumeNumber n
  | .string q => r.consumeQuoted q
  | .char q =>
    let after := r.consumeQuoted q
    if q.items.length = 1 then after else after.reportAt r.position .illegalCharLiteral
  | .rawString e => r.bump.consumeEnclosed Lexeme.backtick .literalNotTerminated e
  | .lineComment e => r.bump.skip e.body.length
  | .blockComment e => r.bump.bump.consumeEnclosed Lexeme.blockEnd .commentNotTerminated e
  | .single _ => r.bump

/-! ## How far a reading gets -/

@[simp]
theorem reportAt_cursor (r : Reading) (p : Position) (f : Fault) :
    (r.reportAt p f).cursor = r.cursor := rfl

@[simp]
theorem report_cursor (r : Reading) (f : Fault) : (r.report f).cursor = r.cursor := rfl

@[simp]
theorem reportAt_rest (r : Reading) (p : Position) (f : Fault) :
    (r.reportAt p f).rest = r.rest := rfl

@[simp]
theorem report_rest (r : Reading) (f : Fault) : (r.report f).rest = r.rest := rfl

@[simp]
theorem bump_cursor (r : Reading) : r.bump.cursor = r.cursor.bump := by
  unfold bump
  split <;> rfl

theorem bump_rest (r : Reading) : r.bump.rest = r.rest.drop 1 := by
  simp only [rest, bump_cursor, Cursor.bump]
  split <;> simp [*]

@[simp]
theorem bumps_rest (r : Reading) (n : Nat) : (r.bumps n).rest = r.rest.drop n := by
  induction n generalizing r with
  | zero => simp [bumps]
  | succ n ih => rw [bumps, ih, bump_rest, List.drop_drop, Nat.add_comm]

@[simp]
theorem skip_rest (r : Reading) (n : Nat) : (r.skip n).rest = r.rest.drop n := rfl

theorem consumeItem_rest (r : Reading) (item : QuotedItem) :
    (r.consumeItem item).rest = r.rest.drop item.chars.length := by
  cases item with
  | plain c => simpa [consumeItem, QuotedItem.chars] using bump_rest r
  | escape e =>
    have h : (r.bump.bumps e.body.length).rest = r.rest.drop (e.body.length + 1) := by
      rw [bumps_rest, bump_rest, List.drop_drop, Nat.add_comm]
    simp only [consumeItem, QuotedItem.chars, List.length_cons]
    split
    · exact h
    · exact h

private theorem foldl_consumeItem_rest (items : List QuotedItem) (r : Reading) :
    (items.foldl consumeItem r).rest = r.rest.drop (items.flatMap QuotedItem.chars).length := by
  induction items generalizing r with
  | nil => simp
  | cons item items ih =>
    rw [List.foldl_cons, ih, consumeItem_rest, List.drop_drop,
      List.flatMap_cons, List.length_append]

theorem consumeQuoted_rest (r : Reading) (q : Quoted) :
    (r.consumeQuoted q).rest = r.rest.drop q.chars.length := by
  have h : (q.items.foldl consumeItem r.bump).rest = r.rest.drop (1 + q.body.length) := by
    rw [foldl_consumeItem_rest, bump_rest, List.drop_drop, Quoted.body]
  simp only [consumeQuoted, Quoted.chars]
  split
  · rw [bump_rest, h, List.drop_drop]
    simp [Nat.add_comm]
  · rw [report_rest, h]
    simp [Nat.add_comm]

theorem consumeEnclosed_rest (r : Reading) (mark : List Char) (f : Fault) (e : Enclosed) :
    (r.consumeEnclosed mark f e).rest = r.rest.drop (e.charsThrough mark).length := by
  simp only [consumeEnclosed]
  split <;> rfl

private theorem foldl_reportAt_cursor (p : Position) (faults : List (Nat × Fault)) (r : Reading) :
    (faults.foldl (fun after (index, fault) => after.reportAt (p.across index) fault) r).cursor
      = r.cursor := by
  induction faults generalizing r with
  | nil => rfl
  | cons f faults ih => rw [List.foldl_cons, ih, reportAt_cursor]

/-- A lexeme is read to its end and no further. -/
theorem consume_rest (r : Reading) (l : Lexeme) :
    (r.consume l).rest = r.rest.drop l.chars.length := by
  cases l with
  | identifier chars => exact bumps_rest r _
  | number n =>
    rw [rest, consume, consumeNumber, foldl_reportAt_cursor]
    simp [Lexeme.chars]
  | string q => exact consumeQuoted_rest r q
  | char q =>
    simp only [consume]
    split
    · exact consumeQuoted_rest r q
    · exact consumeQuoted_rest r q
  | rawString e =>
    simp only [consume, Lexeme.chars, List.length_cons]
    rw [consumeEnclosed_rest, bump_rest, List.drop_drop, Nat.add_comm]
  | lineComment e =>
    simp only [consume, Lexeme.chars, List.length_cons]
    rw [skip_rest, bump_rest, List.drop_drop, Nat.add_comm]
  | blockComment e =>
    simp only [consume, Lexeme.chars, List.length_cons]
    rw [consumeEnclosed_rest, bump_rest, bump_rest, List.drop_drop, List.drop_drop]
    congr 1
    omega
  | single c => simpa [consume, Lexeme.chars] using bump_rest r

end Reading

end Lexis
