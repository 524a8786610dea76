import Mathlib.Data.List.TakeWhile
import Lexis.Source.Cursor

/-!
# Moving through a source

There are two ways to move a position, over one character and over a stretch of text, and two ways
to move a cursor. Here each pair is brought together:

* `Position.locate_append`: going over two stretches one after the other is going over both at once,
  whatever line ends there are in either;
* `Cursor.bump_eq_advance` and `Cursor.advance_advance`: stepping is moving over one character, and
  moves add up.

So a cursor that was made for a source stands, wherever it has been moved, at
`source.cursor.advance n` for a number `n` of characters. Everything that is proved about positions
rests on that.
-/

namespace Lexis

/-! ## Sizes of texts -/

@[simp]
theorem byteSize_nil : byteSize [] = 0 := rfl

@[simp]
theorem byteSize_cons (c : Char) (text : List Char) :
    byteSize (c :: text) = c.utf8Size + byteSize text := rfl

@[simp]
theorem byteSize_append (a b : List Char) : byteSize (a ++ b) = byteSize a + byteSize b := by
  induction a with
  | nil => simp
  | cons c a ih => rw [List.cons_append, byteSize_cons, byteSize_cons, ih, Nat.add_assoc]

/-- Every character takes up a byte at the least. -/
theorem length_le_byteSize (text : List Char) : text.length ≤ byteSize text := by
  induction text with
  | nil => exact Nat.le_refl 0
  | cons c text ih =>
    have hc := c.utf8Size_pos
    rw [List.length_cons, byteSize_cons]
    omega

theorem SourceChar.char_valid (c : Char) : (SourceChar.valid c).char = c := rfl

@[simp]
theorem plainText_nil : plainText [] = [] := rfl

@[simp]
theorem plainText_cons (c : SourceChar) (source : List SourceChar) :
    plainText (c :: source) = c.char :: plainText source := rfl

@[simp]
theorem plainText_append (a b : List SourceChar) :
    plainText (a ++ b) = plainText a ++ plainText b :=
  List.map_append

@[simp]
theorem length_plainText (source : List SourceChar) : (plainText source).length = source.length :=
  List.length_map _

/-- A text that was encoded well reads back as it is. -/
@[simp]
theorem plainText_map_valid (text : List Char) : plainText (text.map .valid) = text := by
  induction text with
  | nil => rfl
  | cons c text ih => rw [List.map_cons, plainText_cons, ih]; rfl

/-- A character of a single byte that ends no line. -/
def IsPlain (c : Char) : Prop :=
  c.utf8Size = 1 ∧ c ≠ '\n'

/-! ## Positions -/

namespace Position

@[simp]
theorem locate_nil (p : Position) : p.locate [] = p := rfl

@[simp]
theorem locate_offset (p : Position) (text : List Char) :
    (p.locate text).offset = p.offset + byteSize text := rfl

theorem locate_line (p : Position) (text : List Char) :
    (p.locate text).line = p.line + text.count '\n' := rfl

theorem locate_column (p : Position) (text : List Char) :
    (p.locate text).column =
      if text.count '\n' = 0 then p.column + text.length
      else (text.reverse.takeWhile (· != '\n')).length + 1 := rfl

/-- A text without line ends has all its characters after the last of them. -/
theorem takeWhile_reverse_of_count_eq_zero {text : List Char} (h : text.count '\n' = 0) :
    text.reverse.takeWhile (· != '\n') = text.reverse := by
  rw [List.takeWhile_eq_self_iff]
  intro c hc
  have hne : c ≠ '\n' := by
    intro he
    subst he
    exact List.count_eq_zero.1 h (List.mem_reverse.1 hc)
  simpa using hne

/-- Behind the last line end of two texts together are the characters behind the last line end of
the second, and if that has none, all of it and those of the first. -/
theorem takeWhile_reverse_append (a b : List Char) :
    ((a ++ b).reverse.takeWhile (· != '\n')).length =
      if b.count '\n' = 0 then b.length + (a.reverse.takeWhile (· != '\n')).length
      else (b.reverse.takeWhile (· != '\n')).length := by
  rw [List.reverse_append]
  split
  · next hb =>
    have hall : ∀ c ∈ b.reverse, (c != '\n') = true :=
      List.takeWhile_eq_self_iff.1 (takeWhile_reverse_of_count_eq_zero hb)
    rw [List.takeWhile_append_of_pos hall, List.length_append, List.length_reverse]
  · next hb =>
    -- the last line end stands in `b`, so counting back from the end stops before `a`
    have hmem : '\n' ∈ b.reverse := by
      rw [List.mem_reverse]
      by_contra h
      exact hb (List.count_eq_zero.2 h)
    have hlt : (b.reverse.takeWhile (· != '\n')).length ≠ b.reverse.length := by
      intro he
      have hself := (List.takeWhile_prefix (l := b.reverse) (· != '\n')).eq_of_length he
      have := List.takeWhile_eq_self_iff.1 hself _ hmem
      simp at this
    rw [List.takeWhile_append, if_neg hlt]

/-- Going over two stretches of text one after the other is going over both at once. -/
theorem locate_append (p : Position) (a b : List Char) :
    p.locate (a ++ b) = (p.locate a).locate b := by
  have hcount : (a ++ b).count '\n' = a.count '\n' + b.count '\n' := List.count_append
  -- columns go on from `a` where `b` has no line end, and start anew where it has one
  have hcolumn : (p.locate (a ++ b)).column = ((p.locate a).locate b).column := by
    rw [locate_column, locate_column, locate_column, hcount, takeWhile_reverse_append]
    by_cases hb : b.count '\n' = 0
    · by_cases ha : a.count '\n' = 0
      · simp only [ha, hb, Nat.add_zero, if_true, List.length_append]
        omega
      · rw [if_neg (by omega), if_pos hb, if_pos hb, if_neg ha]
        omega
    · rw [if_neg (by omega), if_neg hb, if_neg hb]
  have hoffset : (p.locate (a ++ b)).offset = ((p.locate a).locate b).offset := by
    simp only [locate_offset, byteSize_append]
    omega
  have hline : (p.locate (a ++ b)).line = ((p.locate a).locate b).line := by
    simp only [locate_line, hcount]
    omega
  calc p.locate (a ++ b)
      = ⟨(p.locate (a ++ b)).offset, (p.locate (a ++ b)).line, (p.locate (a ++ b)).column⟩ := rfl
    _ = (p.locate a).locate b := by rw [hoffset, hline, hcolumn]

/-- Stepping over a character is going over a text of that one character. -/
theorem next_eq_locate (p : Position) (c : Char) : p.next c = p.locate [c] := by
  by_cases h : c = '\n'
  · subst h
    rfl
  · have hcount : [c].count '\n' = 0 := by
      rw [List.count_eq_zero, List.mem_singleton]
      exact fun he => h he.symm
    simp [next, locate, h, hcount]

/-- In plain text bytes and columns are counted alike. -/
theorem locate_eq_across {text : List Char} (h : ∀ c ∈ text, IsPlain c) (p : Position) :
    p.locate text = p.across text.length := by
  have hcount : text.count '\n' = 0 :=
    List.count_eq_zero.2 fun hmem => (h _ hmem).2 rfl
  have hsize : byteSize text = text.length := by
    clear hcount
    induction text with
    | nil => rfl
    | cons c text ih =>
      have hc := (h c List.mem_cons_self).1
      rw [byteSize_cons, hc, ih fun d hd => h d (List.mem_cons_of_mem _ hd), List.length_cons,
        Nat.add_comm]
  simp [locate, across, hcount, hsize]

end Position

/-! ## Cursors -/

namespace Cursor

@[simp]
theorem advance_rest (c : Cursor) (n : Nat) : (c.advance n).rest = c.rest.drop n := rfl

theorem advance_position (c : Cursor) (n : Nat) :
    (c.advance n).position = c.position.locate (plainText (c.rest.take n)) := rfl

/-- Two moves are one. -/
theorem advance_advance (c : Cursor) (m n : Nat) :
    (c.advance m).advance n = c.advance (m + n) := by
  have hrest : (c.rest.drop m).drop n = c.rest.drop (m + n) := List.drop_drop
  have htake : c.rest.take m ++ (c.rest.drop m).take n = c.rest.take (m + n) :=
    List.take_add.symm
  simp only [advance, hrest, ← Position.locate_append, ← plainText_append, htake]

/-- Stepping is moving over one character. -/
theorem bump_eq_advance (c : Cursor) : c.bump = c.advance 1 := by
  obtain ⟨source, rest, position⟩ := c
  cases rest with
  | nil => rfl
  | cons next rest => simp [bump, advance, Position.next_eq_locate]

end Cursor

end Lexis
