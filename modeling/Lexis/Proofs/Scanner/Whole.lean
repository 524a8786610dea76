import Lexis.Proofs.Lexeme.Quoted
import Lexis.Proofs.Scanner.Number

/-!
# Lexemes without faults

What is reported of a lexeme is what is wrong with it and what is wrong with its characters. So
nothing is reported exactly where the lexeme is whole (`Lexeme.IsWhole`) and its characters are
sound (`Lexeme.reportsAt_eq_nil_iff`). A whole lexeme is read character by character, whichever form
it has (`Reading.consume_eq_bumps`).
-/

namespace Lexis

/-- Nothing is wrong with the lexeme, whatever may be wrong with its characters. -/
inductive Lexeme.IsWhole : Lexeme → Prop
  | identifier (chars : List SourceChar) : IsWhole (.identifier chars)
  | number {n : Number} (hfaults : n.faults = []) : IsWhole (.number n)
  | string {q : Quoted} (hq : q.IsWhole) : IsWhole (.string q)
  | char {q : Quoted} (hq : q.IsWhole) (hone : q.items.length = 1) : IsWhole (.char q)
  | rawString {e : Enclosed} (hclosed : e.closed = true) : IsWhole (.rawString e)
  | lineComment (e : Enclosed) : IsWhole (.lineComment e)
  | blockComment {e : Enclosed} (hclosed : e.closed = true) : IsWhole (.blockComment e)
  | single (c : SourceChar) : IsWhole (.single c)

namespace Reading

theorem consumeEnclosed_eq_bumps {e : Enclosed} (hclosed : e.closed = true) (r : Reading)
    (mark : List Char) (fault : Fault) :
    r.consumeEnclosed mark fault e = r.bumps (e.charsThrough mark).length := by
  rw [consumeEnclosed, if_pos hclosed, skip_eq_bumps]

/-- A lexeme with nothing wrong about it is read character by character. -/
theorem consume_eq_bumps {l : Lexeme} (h : l.IsWhole) (r : Reading) :
    r.consume l = r.bumps l.chars.length := by
  cases h with
  | identifier chars => rfl
  | number hfaults =>
    rw [consume, consumeNumber, hfaults, Lexeme.chars, List.length_map]
    rfl
  | string hq => exact consumeQuoted_eq_bumps hq r
  | char hq hone =>
    rw [consume, if_pos hone]
    exact consumeQuoted_eq_bumps hq r
  | rawString hclosed =>
    rw [consume, consumeEnclosed_eq_bumps hclosed]
    rfl
  | lineComment e =>
    rw [consume, skip_eq_bumps]
    rfl
  | blockComment hclosed =>
    rw [consume, consumeEnclosed_eq_bumps hclosed]
    rfl
  | single c => rfl

end Reading

namespace Lexeme

variable {mode : Mode} {cursor : Cursor} {c : SourceChar} {rest : List SourceChar}

/-- Of a lexeme with nothing wrong about it, only its faulty characters are reported. -/
theorem reportsAt_of_isWhole {l : Lexeme} (h : l.IsWhole) (cursor : Cursor) :
    l.reportsAt cursor =
      SourceChar.reportsFrom cursor.position (cursor.rest.take l.chars.length) := by
  rw [reportsAt, Reading.consume_eq_bumps h, Reading.bumps_reports]
  rfl

/-- Of a whole literal between apostrophes, its faulty characters are reported, and if it does not
hold one character, that too. -/
theorem reportsAt_char {q : Quoted} (hq : q.IsWhole) (cursor : Cursor) :
    (char q).reportsAt cursor =
      SourceChar.reportsFrom cursor.position (cursor.rest.take q.chars.length) ++
        if q.items.length = 1 then [] else [⟨cursor.position, .illegalCharLiteral⟩] := by
  rw [reportsAt, Reading.consume, Reading.consumeQuoted_eq_bumps hq]
  have hbumps := Reading.bumps_reports (.ofCursor cursor) q.chars.length
  split
  · rw [List.append_nil]
    exact hbumps
  · rw [Reading.reportAt, Array.toList_push, hbumps]
    rfl

/-- A lexeme with something wrong about it is reported. -/
theorem isWhole_of_reportsAt_eq_nil (hrest : cursor.rest = c :: rest)
    (h : (read mode c rest).reportsAt cursor = []) : (read mode c rest).IsWhole := by
  have hnumber {floats : Bool}
      (h : (number (.read floats (c :: rest))).reportsAt cursor = []) :
      (number (.read floats (c :: rest))).IsWhole := by
    have hbegins : Begins (Number.read floats (c :: rest)).text cursor.rest := by
      rw [hrest]
      exact Number.begins_read floats (c :: rest)
    have hfaults := Reading.reports_consumeNumber (r := .ofCursor cursor) hbegins
      (Number.composed_read floats (c :: rest))
    have hnone := List.append_eq_nil_iff.1 (hfaults.symm.trans h)
    exact .number (List.map_eq_nil_iff.1 hnone.2)
  have hquoted {quote : Char}
      (h : ((Reading.ofCursor cursor).consumeQuoted (.read quote rest)).reports.toList = []) :
      (Quoted.read quote rest).IsWhole := by
    exact (Quoted.bodyText_of_reports (h ▸ List.forall_mem_nil _)).1
  have henclosed {r : Reading} {mark : List Char} {fault : Fault} {e : Enclosed}
      (h : (r.consumeEnclosed mark fault e).reports.toList = []) : e.closed = true :=
    Reading.closed_of_consumeEnclosed (h ▸ List.forall_mem_nil _)
  have hform := form_read mode c rest
  generalize read mode c rest = l at h hform ⊢
  cases hform with
  | identifier _ _ => exact .identifier _
  | number _ _ => exact hnumber h
  | point _ _ _ => exact hnumber h
  | quoted quoting _ _ =>
    cases quoting with
    | double => exact .string (hquoted h)
    | single =>
      by_cases hone : (Quoted.read '\x27' rest).items.length = 1
      · rw [reportsAt, Quoting.read, Reading.consume, if_pos hone] at h
        exact .char (hquoted h) hone
      · rw [reportsAt, Quoting.read, Reading.consume, if_neg hone] at h
        simp [Reading.reportAt] at h
    | backticks => exact .rawString (henclosed h)
  | lineComment _ _ _ => exact .lineComment _
  | blockComment _ _ _ => exact .blockComment (henclosed h)
  | single => exact .single c

/-- Nothing is reported of a lexeme exactly where nothing is wrong with it nor with any of its
characters. -/
theorem reportsAt_eq_nil_iff (hrest : cursor.rest = c :: rest) :
    (read mode c rest).reportsAt cursor = [] ↔
      (read mode c rest).IsWhole ∧ ∀ d ∈ (read mode c rest).chars, d.fault? = none := by
  have hchars : cursor.rest.take (read mode c rest).chars.length = (read mode c rest).chars := by
    rw [hrest]
    exact (List.prefix_iff_eq_take.1 (chars_read_isPrefix mode c rest)).symm
  constructor
  · intro h
    have hwhole := isWhole_of_reportsAt_eq_nil hrest h
    rw [reportsAt_of_isWhole hwhole, hchars, SourceChar.reportsFrom_eq_nil_iff] at h
    exact ⟨hwhole, h⟩
  · rintro ⟨hwhole, hsound⟩
    rw [reportsAt_of_isWhole hwhole, hchars, SourceChar.reportsFrom_eq_nil_iff]
    exact hsound

end Lexeme

end Lexis
