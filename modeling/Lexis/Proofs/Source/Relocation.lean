import Lexis.Proofs.Source.Movement

/-!
# Texts in another place

Positions are counted from where a text starts. Where the same text stands further on in a source,
each position in it corresponds to another one (`Position.movedTo`): offsets and lines are added up,
and columns on the line on which the text starts. Going over a stretch of the text comes to
corresponding positions (`Position.movedTo_locate`), whatever line ends there are in it.
-/

namespace Lexis

namespace Position

/-- Where a position of a text lies if the text starts at `origin`. -/
def movedTo (p origin : Position) : Position :=
  ⟨p.offset + origin.offset, p.line + origin.line - 1,
    if p.line = 1 then p.column + origin.column - 1 else p.column⟩

/-- The line and the column are counted from one. -/
structure IsCounted (p : Position) : Prop where
  line_pos : 1 ≤ p.line
  column_pos : 1 ≤ p.column

variable {p : Position}

theorem isCounted_start : IsCounted start where
  line_pos := Nat.le_refl 1
  column_pos := Nat.le_refl 1

theorem IsCounted.locate (h : p.IsCounted) (text : List Char) : (p.locate text).IsCounted where
  line_pos := by
    have hline := h.line_pos
    rw [locate_line]
    omega
  column_pos := by
    have hcolumn := h.column_pos
    rw [locate_column]
    split
    · omega
    · omega

/-- The start of a text lies where the text starts. -/
theorem start_movedTo (origin : Position) : start.movedTo origin = origin := by
  have hline : 1 + origin.line - 1 = origin.line := Nat.add_sub_cancel_left 1 _
  have hcolumn : 1 + origin.column - 1 = origin.column := Nat.add_sub_cancel_left 1 _
  simp [movedTo, start, hline, hcolumn]

/-- At the start of a line, only offsets are shifted. -/
theorem movedTo_lineStart (p : Position) (offset : Nat) :
    p.movedTo ⟨offset, 1, 1⟩ = ⟨p.offset + offset, p.line, p.column⟩ := by
  simp [movedTo]

theorem movedTo_start (p : Position) : p.movedTo start = p :=
  p.movedTo_lineStart 0

/-- Going over a stretch of text leads to corresponding positions. -/
theorem movedTo_locate (h : p.IsCounted) (origin : Position) (text : List Char) :
    (p.locate text).movedTo origin = (p.movedTo origin).locate text := by
  have hline := h.line_pos
  have hcolumn := h.column_pos
  have hoffset : p.offset + byteSize text + origin.offset =
      p.offset + origin.offset + byteSize text := by
    omega
  have hlines : p.line + text.count '\n' + origin.line - 1 =
      p.line + origin.line - 1 + text.count '\n' := by
    omega
  -- behind a line end, columns do not depend on where the text starts
  by_cases hbreaks : text.count '\n' = 0
  · by_cases hfirst : p.line = 1
    · have hcolumns : p.column + text.length + origin.column - 1 =
          p.column + origin.column - 1 + text.length := by
        omega
      simp [movedTo, locate, hbreaks, hfirst, hoffset, hcolumns]
    · simp [movedTo, locate, hbreaks, hfirst, hoffset]
  · have hlater : p.line + text.count '\n' ≠ 1 := by
      omega
    simp [movedTo, locate, hbreaks, hlater, hoffset, hlines]

theorem movedTo_next (h : p.IsCounted) (origin : Position) (c : Char) :
    (p.next c).movedTo origin = (p.movedTo origin).next c := by
  rw [next_eq_locate, next_eq_locate, movedTo_locate h]

theorem movedTo_across (h : p.IsCounted) (origin : Position) (n : Nat) :
    (p.across n).movedTo origin = (p.movedTo origin).across n := by
  have hcolumn := h.column_pos
  have hoffset : p.offset + n + origin.offset = p.offset + origin.offset + n := by
    omega
  by_cases hfirst : p.line = 1
  · have hcolumns : p.column + n + origin.column - 1 = p.column + origin.column - 1 + n := by
      omega
    simp [movedTo, across, hfirst, hoffset, hcolumns]
  · simp [movedTo, across, hfirst, hoffset]

end Position

end Lexis
