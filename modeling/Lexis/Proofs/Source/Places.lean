import Lexis.Proofs.Source.Movement

/-!
# Places in a source

A byte offset is a place in a source only if it stands between two characters. This file says which
text stands between the places that a cursor comes to (`Source.slice?_advance`), and what it means
that a position tells the truth about its place (`Position.IsTrue`): the line and the column are
those that a reader counts to who starts behind the byte order mark. Every position that a cursor
comes to is true (`Source.isTrue_advance`).
-/

namespace Lexis

/-! ## Finding offsets between characters -/

theorem SourceChar.size_pos (c : SourceChar) : 0 < c.size :=
  Char.utf8Size_pos _

namespace Source

/-- The characters before an offset are found by their size. -/
theorem charsFilling?_append (a b : List SourceChar) :
    charsFilling? (byteSize (plainText a)) (a ++ b) = some a.length := by
  induction a with
  | nil => simp [charsFilling?]
  | cons c a ih =>
    have hc := c.size_pos
    -- written as a successor, the offset lets the search take a step
    have hsize : byteSize (plainText (c :: a)) = (c.size - 1 + byteSize (plainText a)) + 1 := by
      rw [plainText_cons, byteSize_cons]
      show c.size + _ = _
      omega
    have hrest : c.size - 1 + byteSize (plainText a) + 1 - c.size = byteSize (plainText a) := by
      omega
    rw [hsize, List.cons_append, charsFilling?, if_pos (by omega), hrest, ih]
    rfl

/-- The text between two offsets is found between the characters before the one and behind the
other. -/
theorem slice?_of_chars_eq {s : Source} {a b c : List SourceChar} (h : s.chars = a ++ b ++ c) :
    s.slice? (byteSize (plainText a)) (byteSize (plainText (a ++ b))) = some (plainText b) := by
  have hle : byteSize (plainText a) ≤ byteSize (plainText (a ++ b)) := by
    rw [plainText_append, byteSize_append]
    omega
  have hsub : byteSize (plainText (a ++ b)) - byteSize (plainText a) = byteSize (plainText b) := by
    rw [plainText_append, byteSize_append]
    omega
  have hfirst : charsFilling? (byteSize (plainText a)) s.chars = some a.length := by
    rw [h, List.append_assoc]
    exact charsFilling?_append a (b ++ c)
  have hdrop : s.chars.drop a.length = b ++ c := by
    rw [h, List.append_assoc, List.drop_left]
  rw [slice?, if_pos hle, hfirst, hsub]
  simp only [Option.bind_eq_bind, Option.bind_some, hdrop, charsFilling?_append, List.take_left]
  rfl

/-! ## Behind the byte order mark -/

/-- The byte order mark, or nothing if there is none. -/
def mark (s : Source) : List SourceChar :=
  if s.isMarked then [.valid byteOrderMark] else []

theorem markSize_eq (s : Source) : s.markSize = byteSize (plainText s.mark) := by
  unfold markSize mark
  split
  · rfl
  · rfl

/-- A source is its byte order mark and what a cursor made for it has still to read. -/
theorem chars_eq (s : Source) : s.chars = s.mark ++ s.cursor.rest := by
  unfold mark cursor isMarked
  cases hs : s.chars with
  | nil => rfl
  | cons c rest =>
    by_cases hc : c = .valid byteOrderMark
    · simp [hc]
    · simp [hc]

/-- The byte order mark is all of the first character. -/
theorem mark_isPrefix {s : Source} {before after : List SourceChar}
    (hchars : s.chars = before ++ after) (hbefore : before ≠ []) : s.mark <+: before := by
  have hlength : s.mark.length ≤ 1 := by
    unfold mark
    split
    · exact Nat.le_refl 1
    · exact Nat.zero_le 1
  refine List.prefix_of_prefix_length_le ⟨_, s.chars_eq.symm⟩ ⟨_, hchars.symm⟩ ?_
  exact Nat.le_trans hlength (List.length_pos_iff.2 hbefore)

/-- Without a byte order mark, a cursor starts at the first character. -/
theorem cursor_of_not_isMarked {s : Source} (h : s.isMarked = false) :
    s.cursor = ⟨s, s.chars, .start⟩ := by
  rw [cursor, markSize, h]
  rfl

/-- Nothing is taken off a text that does not begin with a byte order mark. -/
theorem cursor_ofText {text : List Char} (h : text.head? ≠ some byteOrderMark) :
    (ofText text).cursor = ⟨ofText text, text.map .valid, .start⟩ := by
  refine cursor_of_not_isMarked ?_
  rw [isMarked, ofText, List.head?_map, beq_eq_false_iff_ne]
  intro hhead
  obtain ⟨c, hc, hvalid⟩ := Option.map_eq_some_iff.1 hhead
  exact h (hc.trans (congrArg some (SourceChar.valid.inj hvalid)))

theorem size_eq (s : Source) : s.size = s.markSize + byteSize (plainText s.cursor.rest) := by
  rw [size, text, chars_eq, plainText_append, byteSize_append, markSize_eq]

/-- The offset of a cursor is the size of the characters behind it. -/
theorem offset_advance (s : Source) (n : Nat) :
    (s.cursor.advance n).position.offset =
      byteSize (plainText (s.mark ++ s.cursor.rest.take n)) := by
  rw [Cursor.advance_position, Position.locate_offset, plainText_append, byteSize_append,
    ← markSize_eq]
  rfl

theorem offset_advance_eq_add (s : Source) (n : Nat) :
    (s.cursor.advance n).position.offset =
      s.markSize + byteSize (plainText (s.cursor.rest.take n)) := by
  rw [offset_advance, plainText_append, byteSize_append, markSize_eq]

/-- The text between two places of a cursor is what it passed on its way from the one to the
other. -/
theorem slice?_advance (s : Source) (m n : Nat) :
    s.slice? (s.cursor.advance m).position.offset (s.cursor.advance (m + n)).position.offset =
      some (plainText ((s.cursor.rest.drop m).take n)) := by
  have hchars : s.chars = (s.mark ++ s.cursor.rest.take m) ++ (s.cursor.rest.drop m).take n ++
      s.cursor.rest.drop (m + n) := by
    rw [List.append_assoc, List.append_assoc, ← List.append_assoc (s.cursor.rest.take m),
      ← List.take_add, List.take_append_drop]
    exact s.chars_eq
  rw [offset_advance, offset_advance, List.take_add, ← List.append_assoc]
  exact slice?_of_chars_eq hchars

/-- The offsets of a cursor that moves on grow with the text that it passes. -/
theorem offset_advance_add (s : Source) (m n : Nat) :
    (s.cursor.advance (m + n)).position.offset =
      (s.cursor.advance m).position.offset +
        byteSize (plainText ((s.cursor.rest.drop m).take n)) := by
  rw [offset_advance_eq_add, offset_advance_eq_add, List.take_add, plainText_append,
    byteSize_append, Nat.add_assoc]

theorem offset_advance_le_size (s : Source) (n : Nat) :
    (s.cursor.advance n).position.offset ≤ s.size := by
  have h := congrArg (fun l => byteSize (plainText l)) (List.take_append_drop n s.cursor.rest)
  simp only [plainText_append, byteSize_append] at h
  rw [offset_advance_eq_add, size_eq]
  omega

/-- A cursor that has nothing left to read stands at the end. -/
theorem offset_advance_of_rest_eq_nil (s : Source) {n : Nat} (h : (s.cursor.advance n).rest = []) :
    (s.cursor.advance n).position.offset = s.size := by
  have htake : s.cursor.rest.take n = s.cursor.rest := by
    have hsplit := List.take_append_drop n s.cursor.rest
    rwa [← Cursor.advance_rest, h, List.append_nil] at hsplit
  rw [offset_advance_eq_add, htake, size_eq]

/-- The text from a place of a cursor to the end is what the cursor has still to read there. -/
theorem slice?_advance_size (s : Source) (n : Nat) :
    s.slice? (s.cursor.advance n).position.offset s.size =
      some (plainText (s.cursor.rest.drop n)) := by
  have hend : (s.cursor.advance (n + s.cursor.rest.length)).rest = [] := by
    rw [Cursor.advance_rest, List.drop_eq_nil_iff]
    omega
  have h := s.slice?_advance n s.cursor.rest.length
  rwa [offset_advance_of_rest_eq_nil s hend, List.take_of_length_le (by simp)] at h

end Source

/-! ## Offsets of a cursor -/

namespace Cursor

theorem offset_advance_le (c : Cursor) {m n : Nat} (h : m ≤ n) :
    (c.advance m).position.offset ≤ (c.advance n).position.offset := by
  obtain ⟨k, rfl⟩ := Nat.exists_eq_add_of_le h
  rw [← advance_advance, advance_position (c.advance m), Position.locate_offset]
  omega

/-- As long as there is something left to read, moving on makes the offset grow. -/
theorem offset_advance_lt (c : Cursor) {m n : Nat} (h : m < n) (hrest : m < c.rest.length) :
    (c.advance m).position.offset < (c.advance n).position.offset := by
  have hsucc : (c.advance m).position.offset < (c.advance (m + 1)).position.offset := by
    rw [← advance_advance, advance_position (c.advance m), Position.locate_offset, advance_rest,
      List.drop_eq_getElem_cons hrest, List.take_succ_cons, plainText_cons, byteSize_cons]
    have := (c.rest[m]).char.utf8Size_pos
    omega
  exact Nat.lt_of_lt_of_le hsucc (c.offset_advance_le h)

end Cursor

/-! ## True positions -/

/-- Whether a byte offset stands between two characters of the source, or at one of its ends. -/
def Source.IsBoundary (s : Source) (offset : Nat) : Prop :=
  (Source.charsFilling? offset s.chars).isSome = true

/-- A position that tells the truth about its place in a source. -/
structure Position.IsTrue (p : Position) (s : Source) : Prop where
  isBoundary : s.IsBoundary p.offset
  markSize_le : s.markSize ≤ p.offset
  le_size : p.offset ≤ s.size
  /-- The text from the byte order mark on has one line end less than the number of the line, and
  behind the last of them one character less than the number of the column. -/
  counts : ∃ before, s.slice? s.markSize p.offset = some before ∧
    p.line = 1 + before.count '\n' ∧
    p.column = 1 + (before.reverse.takeWhile (· != '\n')).length

/-- A column found from the start of a line is the number of characters since the last line end. -/
theorem Position.locate_column_of_column_eq_one {p : Position} (h : p.column = 1)
    (text : List Char) :
    (p.locate text).column = 1 + (text.reverse.takeWhile (· != '\n')).length := by
  rw [locate_column, h]
  split
  · next hcount =>
    rw [takeWhile_reverse_of_count_eq_zero hcount, List.length_reverse]
  · rw [Nat.add_comm]

/-- Every position that a cursor comes to is true. -/
theorem Source.isTrue_advance (s : Source) (n : Nat) :
    (s.cursor.advance n).position.IsTrue s where
  isBoundary := by
    have hchars : s.chars = (s.mark ++ s.cursor.rest.take n) ++ s.cursor.rest.drop n := by
      rw [List.append_assoc, List.take_append_drop]
      exact s.chars_eq
    rw [IsBoundary, offset_advance, hchars, charsFilling?_append]
    rfl
  markSize_le := by
    rw [offset_advance_eq_add]
    omega
  le_size := s.offset_advance_le_size n
  counts := by
    refine ⟨plainText (s.cursor.rest.take n), ?_, ?_, ?_⟩
    · have h := s.slice?_advance 0 n
      rwa [Nat.zero_add] at h
    · rw [Cursor.advance_position, Position.locate_line]
      rfl
    -- behind the mark a line starts, so columns are counted from one there
    · rw [Cursor.advance_position]
      exact Position.locate_column_of_column_eq_one rfl _

end Lexis
