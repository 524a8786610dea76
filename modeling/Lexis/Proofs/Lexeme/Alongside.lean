import Lexis.Proofs.Lexeme.Ending
import Lexis.Proofs.Lexeme.Reports
import Lexis.Proofs.Source.Relocation

/-!
# Reading the same text in two places

One reading goes over a text from its start. Another goes alongside it (`Reading.Alongside`), where
the same text stands further on in a source, and more text may follow it there. Both find the same
lexemes, and what they report they report at corresponding positions (`Reading.alongside_next`). A
step of the one over characters of the text is a step of the other; only where the text ends could
the second see what the first does not.
-/

namespace Lexis

/-- The report at another position. -/
def Report.relocate (f : Position → Position) (report : Report) : Report :=
  { report with position := f report.position }

/-- Faulty characters are faulty wherever they stand. -/
theorem SourceChar.reportsFrom_movedTo {p : Position} (h : p.IsCounted) (origin : Position)
    (chunk : List SourceChar) :
    reportsFrom (p.movedTo origin) chunk =
      (reportsFrom p chunk).map (Report.relocate (·.movedTo origin)) := by
  induction chunk generalizing p with
  | nil => rfl
  | cons c chunk ih =>
    have hnext : (p.next c.char).IsCounted := by
      rw [Position.next_eq_locate]
      exact h.locate _
    rw [reportsFrom_cons, reportsFrom_cons, List.map_append, ← ih hnext, Position.movedTo_next h]
    congr 1
    cases c.fault? with
    | none => rfl
    | some fault => rfl

namespace Reading

/-- `s` reads what `r` reads, in a source where the text starts at `origin`, and `more` follows it.
-/
structure Alongside (origin : Position) (more : List SourceChar) (r s : Reading) : Prop where
  counted : r.position.IsCounted
  rest_eq : s.rest = r.rest ++ more
  position_eq : s.position = r.position.movedTo origin
  reports_eq : s.reports.toList = r.reports.toList.map (Report.relocate (·.movedTo origin))

namespace Alongside

variable {origin : Position} {more : List SourceChar} {r s : Reading}

/-! ## Steps -/

/-- What the two go over while there is text left is the same. -/
theorem take_eq (h : r.Alongside origin more s) {n : Nat} (hn : n ≤ r.rest.length) :
    s.rest.take n = r.rest.take n := by
  rw [h.rest_eq, List.take_append_of_le_length hn]

theorem bumps (h : r.Alongside origin more s) {n : Nat} (hn : n ≤ r.rest.length) :
    (r.bumps n).Alongside origin more (s.bumps n) where
  counted := by
    rw [position, bumps_cursor]
    exact h.counted.locate _
  rest_eq := by
    rw [bumps_rest, bumps_rest, h.rest_eq, List.drop_append_of_le_length hn]
  position_eq := by
    have hposition : s.cursor.position = r.cursor.position.movedTo origin := h.position_eq
    rw [position, position, bumps_cursor, bumps_cursor, Cursor.advance_position,
      Cursor.advance_position, h.take_eq hn, hposition, Position.movedTo_locate h.counted]
  reports_eq := by
    rw [bumps_reports, bumps_reports, List.map_append, h.reports_eq, h.take_eq hn, h.position_eq,
      SourceChar.reportsFrom_movedTo h.counted]

theorem bump (h : r.Alongside origin more s) (hn : 1 ≤ r.rest.length) :
    r.bump.Alongside origin more s.bump :=
  h.bumps hn

theorem skip (h : r.Alongside origin more s) {n : Nat} (hn : n ≤ r.rest.length) :
    (r.skip n).Alongside origin more (s.skip n) := by
  rw [skip_eq_bumps, skip_eq_bumps]
  exact h.bumps hn

/-- Reports that are made at corresponding positions. -/
theorem reportAt (h : r.Alongside origin more s) {p q : Position} (hq : q = p.movedTo origin)
    (fault : Fault) : (r.reportAt p fault).Alongside origin more (s.reportAt q fault) where
  counted := h.counted
  rest_eq := h.rest_eq
  position_eq := h.position_eq
  reports_eq := by
    show (s.reports.push _).toList = (r.reports.push _).toList.map _
    rw [Array.toList_push, Array.toList_push, List.map_append, h.reports_eq, hq]
    rfl

theorem report (h : r.Alongside origin more s) (fault : Fault) :
    (r.report fault).Alongside origin more (s.report fault) :=
  h.reportAt h.position_eq fault

/-! ## Lexemes -/

theorem consumeItem (h : r.Alongside origin more s) {item : QuotedItem}
    (hn : item.chars.length ≤ r.rest.length) :
    (r.consumeItem item).Alongside origin more (s.consumeItem item) := by
  cases item with
  | plain c => exact h.bump hn
  | escape e =>
    rw [QuotedItem.chars, List.length_cons] at hn
    have hfirst := h.bump (Nat.le_trans (Nat.le_add_left 1 _) hn)
    have hbody := hfirst.bumps (n := e.body.length) (by rw [bump_rest, List.length_drop]; omega)
    simp only [Reading.consumeItem]
    split
    · exact hbody
    · exact hbody.report .invalidEscape

theorem foldl_consumeItem (items : List QuotedItem) (h : r.Alongside origin more s)
    (hn : (items.flatMap QuotedItem.chars).length ≤ r.rest.length) :
    (items.foldl Reading.consumeItem r).Alongside origin more
      (items.foldl Reading.consumeItem s) := by
  induction items generalizing r s with
  | nil => exact h
  | cons item items ih =>
    rw [List.flatMap_cons, List.length_append] at hn
    refine ih (h.consumeItem (by omega)) ?_
    rw [consumeItem_rest, List.length_drop]
    omega

theorem consumeQuoted (h : r.Alongside origin more s) {q : Quoted}
    (hn : q.chars.length ≤ r.rest.length) :
    (r.consumeQuoted q).Alongside origin more (s.consumeQuoted q) := by
  rw [Quoted.chars, List.length_append, List.length_cons] at hn
  have hitems := (h.bump (by omega)).foldl_consumeItem q.items (by
    rw [bump_rest, List.length_drop]
    exact Nat.le_sub_of_add_le (Nat.le_trans (Nat.le_add_right _ _) hn))
  have hlength : (q.items.foldl Reading.consumeItem r.bump).rest.length =
      r.rest.length - (1 + q.body.length) := by
    rw [(passage_foldl_consumeItem q.items r.bump).rest_eq, bump_rest, List.drop_drop,
      List.length_drop, Quoted.body]
  simp only [Reading.consumeQuoted]
  split
  · next hclosed =>
    rw [if_pos hclosed, List.length_singleton] at hn
    exact hitems.bump (by omega)
  · exact hitems.report .literalNotTerminated

theorem consumeEnclosed (h : r.Alongside origin more s) (mark : List Char) (fault : Fault)
    {e : Enclosed} (hn : (e.charsThrough mark).length ≤ r.rest.length) :
    (r.consumeEnclosed mark fault e).Alongside origin more (s.consumeEnclosed mark fault e) := by
  simp only [Reading.consumeEnclosed]
  split
  · exact h.skip hn
  · exact (h.skip hn).report fault

theorem consumeNumber (h : r.Alongside origin more s) {n : Number}
    (hn : n.text.length ≤ r.rest.length) :
    (r.consumeNumber n).Alongside origin more (s.consumeNumber n) := by
  have hfold : ∀ (faults : List (Nat × Fault)) {after after' : Reading},
      after.Alongside origin more after' →
      (faults.foldl (fun after found => after.reportAt (r.position.across found.1) found.2)
        after).Alongside origin more
      (faults.foldl (fun after found => after.reportAt (s.position.across found.1) found.2)
        after') := by
    intro faults
    induction faults with
    | nil => exact fun hafter => hafter
    | cons found faults ih =>
      intro after after' hafter
      refine ih (hafter.reportAt ?_ found.2)
      rw [h.position_eq, Position.movedTo_across h.counted]
  exact hfold n.faults (h.bumps hn)

/-- Both read a lexeme alike. -/
theorem consume (h : r.Alongside origin more s) {l : Lexeme}
    (hn : l.chars.length ≤ r.rest.length) :
    (r.consume l).Alongside origin more (s.consume l) := by
  cases l with
  | identifier chars => exact h.bumps hn
  | number n =>
    rw [Lexeme.chars, List.length_map] at hn
    exact h.consumeNumber hn
  | string q => exact h.consumeQuoted hn
  | char q =>
    simp only [Reading.consume]
    split
    · exact h.consumeQuoted hn
    · exact (h.consumeQuoted hn).reportAt h.position_eq .illegalCharLiteral
  | rawString e =>
    rw [Lexeme.chars, List.length_cons] at hn
    have hfirst := h.bump (Nat.le_trans (Nat.le_add_left 1 _) hn)
    exact hfirst.consumeEnclosed _ _ (by rw [bump_rest, List.length_drop]; omega)
  | lineComment e =>
    rw [Lexeme.chars, List.length_cons] at hn
    have hfirst := h.bump (Nat.le_trans (Nat.le_add_left 1 _) hn)
    exact hfirst.skip (by rw [bump_rest, List.length_drop]; omega)
  | blockComment e =>
    rw [Lexeme.chars, List.length_cons, List.length_cons] at hn
    have hfirst := h.bump (by omega)
    have hsecond := hfirst.bump (by rw [bump_rest, List.length_drop]; omega)
    refine hsecond.consumeEnclosed _ _ ?_
    rw [bump_rest, bump_rest, List.length_drop, List.length_drop]
    omega
  | single c => exact h.bump hn

/-! ## The next lexeme -/

theorem skipWhitespace (h : r.Alongside origin more s) (config : Config)
    (hmore : (r.skipWhitespace config).rest = [] → more = []) :
    (r.skipWhitespace config).Alongside origin more (s.skipWhitespace config) := by
  have hle := (List.takeWhile_prefix (l := r.rest) fun c => config.isWhitespace c.char).length_le
  have hblanks : s.rest.takeWhile (fun c => config.isWhitespace c.char) =
      r.rest.takeWhile fun c => config.isWhitespace c.char := by
    rw [h.rest_eq]
    by_cases hlt : (r.rest.takeWhile fun c => config.isWhitespace c.char).length < r.rest.length
    · exact takeWhile_append_of_lt hlt more
    · rw [skipWhitespace_rest, List.drop_eq_nil_iff] at hmore
      rw [hmore (Nat.not_lt.1 hlt), List.append_nil]
  rw [Reading.skipWhitespace, Reading.skipWhitespace, hblanks]
  exact h.bumps hle

/-- The lexeme that is read is the same, unless it takes up all the text and more follows. -/
theorem read_eq (h : r.Alongside origin more s) (mode : Mode) {c : SourceChar}
    {rest : List SourceChar} (hrest : r.rest = c :: rest)
    (hmore : (r.consume (.read mode c rest)).rest = [] → more = []) :
    s.rest = c :: (rest ++ more) ∧
      Lexeme.read mode c (rest ++ more) = Lexeme.read mode c rest := by
  refine ⟨by rw [h.rest_eq, hrest, List.cons_append], ?_⟩
  by_cases hlength : (Lexeme.read mode c rest).chars.length ≤ rest.length
  · exact Lexeme.read_append hlength more
  · rw [consume_rest, hrest, List.drop_eq_nil_iff, List.length_cons] at hmore
    rw [hmore (by omega), List.append_nil]

end Alongside

/-- Both find the same lexeme next, and read it alike. -/
theorem alongside_next {origin : Position} {more : List SourceChar} (config : Config) (r : Reading) :
    ∀ s : Reading, r.Alongside origin more s → ((r.next config).after.rest = [] → more = []) →
      (s.next config).lexeme? = (r.next config).lexeme? ∧
        (r.next config).before.Alongside origin more (s.next config).before ∧
        (r.next config).after.Alongside origin more (s.next config).after := by
  fun_induction next config r with
  | case1 r before hend =>
    intro s h hmore
    have hbefore : before.Alongside origin more (s.skipWhitespace config) :=
      h.skipWhitespace config hmore
    have hnil : (s.skipWhitespace config).rest = [] := by
      rw [hbefore.rest_eq, hend, hmore hend]
      rfl
    rw [next_of_skipWhitespace_rest_eq_nil config hnil]
    exact ⟨rfl, hbefore, hbefore⟩
  | case2 r before c rest hrest lexeme after hlt hskip ih =>
    intro s h hmore
    have hbefore : before.Alongside origin more (s.skipWhitespace config) :=
      h.skipWhitespace config fun hnil => by cases hrest.symm.trans hnil
    have hlength : lexeme.chars.length ≤ before.rest.length := by
      rw [hrest]
      exact (Lexeme.chars_read_isPrefix config.mode c rest).length_le
    -- at the end there is nothing to find behind the comment
    obtain ⟨hsrest, hread⟩ := hbefore.read_eq config.mode hrest fun hnil => by
      refine hmore ?_
      rw [next_of_rest_eq_nil config hnil]
      exact hnil
    rw [next_of_skipWhitespace_rest_eq_cons config hsrest]
    dsimp only
    rw [hread, if_pos hskip]
    exact ih _ (hbefore.consume hlength) hmore
  | case3 r before c rest hrest lexeme after hlt hfound =>
    intro s h hmore
    have hbefore : before.Alongside origin more (s.skipWhitespace config) :=
      h.skipWhitespace config fun hnil => by cases hrest.symm.trans hnil
    have hlength : lexeme.chars.length ≤ before.rest.length := by
      rw [hrest]
      exact (Lexeme.chars_read_isPrefix config.mode c rest).length_le
    obtain ⟨hsrest, hread⟩ := hbefore.read_eq config.mode hrest hmore
    rw [next_of_skipWhitespace_rest_eq_cons config hsrest]
    dsimp only
    rw [hread, if_neg hfound]
    exact ⟨rfl, hbefore, hbefore.consume hlength⟩

end Reading

end Lexis
