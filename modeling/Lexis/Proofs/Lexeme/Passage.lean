import Lexis.Proofs.Lexeme.CharacterFault
import Lexis.Proofs.Lexeme.Extent

/-!
# What a reading does to its cursor and its reports

`Reading.Passage r n s` says all that is to be known of a reading `s` that `r` has become by reading
`n` characters: where its cursor is, that reports were only added, that each of them was made at a
place passed on the way, and that those about faulty characters are exactly the ones that the
characters passed give rise to. Passages are put together with `Passage.trans`, a report leaves a
passage as it is (`Passage.reportAt`), and so every way of reading a lexeme is a passage over its
characters (`Reading.passage_consume_read`).
-/

namespace Lexis

namespace Reading

/-- `s` is what `r` has become by reading `n` characters. -/
structure Passage (r : Reading) (n : Nat) (s : Reading) : Prop where
  cursor_eq : s.cursor = r.cursor.advance n
  reports_eq : ∃ made : List Report,
    s.reports.toList = r.reports.toList ++ made ∧
    (∀ report ∈ made, ∃ k ≤ n, report.position = (r.cursor.advance k).position) ∧
    made.filter (·.fault.isOfCharacter) = SourceChar.reportsFrom r.position (r.rest.take n)

namespace Passage

variable {r s t : Reading} {m n : Nat}

theorem rest_eq (h : Passage r n s) : s.rest = r.rest.drop n := by
  rw [rest, h.cursor_eq, Cursor.advance_rest]

theorem position_eq (h : Passage r n s) :
    s.position = r.position.locate (plainText (r.rest.take n)) := by
  rw [position, h.cursor_eq, Cursor.advance_position]

/-- Reading nothing. -/
theorem refl (r : Reading) : Passage r 0 r where
  cursor_eq := rfl
  reports_eq := ⟨[], by simp, by simp, rfl⟩

/-- One passage after the other. -/
theorem trans (hrs : Passage r m s) (hst : Passage s n t) : Passage r (m + n) t where
  cursor_eq := by
    rw [hst.cursor_eq, hrs.cursor_eq, Cursor.advance_advance]
  reports_eq := by
    obtain ⟨made, hmade, hplaces, hfaulty⟩ := hrs.reports_eq
    obtain ⟨more, hmore, hplaces', hfaulty'⟩ := hst.reports_eq
    refine ⟨made ++ more, ?_, ?_, ?_⟩
    · rw [hmore, hmade, List.append_assoc]
    · intro report hreport
      rcases List.mem_append.1 hreport with h | h
      · obtain ⟨k, hk, hp⟩ := hplaces report h
        exact ⟨k, by omega, hp⟩
      -- a place on the second passage is as far on from the start as the first one led
      · obtain ⟨k, hk, hp⟩ := hplaces' report h
        refine ⟨m + k, by omega, ?_⟩
        rw [hp, hrs.cursor_eq, Cursor.advance_advance]
    · rw [List.filter_append, hfaulty, hfaulty', hrs.position_eq, hrs.rest_eq, List.take_add,
        SourceChar.reportsFrom_append]

/-- Reading character by character is a passage. -/
theorem bumps (r : Reading) (n : Nat) : Passage r n (r.bumps n) where
  cursor_eq := r.bumps_cursor n
  reports_eq := by
    refine ⟨SourceChar.reportsFrom r.position (r.rest.take n), r.bumps_reports n, ?_, ?_⟩
    · intro report hreport
      obtain ⟨k, hk, hp⟩ := SourceChar.position_of_mem_reportsFrom hreport
      rw [List.length_take] at hk
      refine ⟨k, by omega, ?_⟩
      rw [hp, List.take_take, Nat.min_eq_left (by omega)]
      rfl
    · rw [List.filter_eq_self]
      intro report hreport
      exact SourceChar.isOfCharacter_of_mem_reportsFrom hreport

theorem bump (r : Reading) : Passage r 1 r.bump :=
  bumps r 1

theorem skip (r : Reading) (n : Nat) : Passage r n (r.skip n) := by
  rw [skip_eq_bumps]
  exact bumps r n

/-- A report that is not about a faulty character may be made at any place on the way. -/
theorem reportAt (h : Passage r n s) {k : Nat} (hk : k ≤ n) {fault : Fault}
    (hfault : fault.isOfCharacter = false) {position : Position}
    (hposition : position = (r.cursor.advance k).position) :
    Passage r n (s.reportAt position fault) where
  cursor_eq := h.cursor_eq
  reports_eq := by
    obtain ⟨made, hmade, hplaces, hfaulty⟩ := h.reports_eq
    refine ⟨made ++ [⟨position, fault⟩], ?_, ?_, ?_⟩
    · show (s.reports.push _).toList = _
      rw [Array.toList_push, hmade, List.append_assoc]
    · intro report hreport
      rcases List.mem_append.1 hreport with hr | hr
      · exact hplaces report hr
      · rw [List.mem_singleton.1 hr]
        exact ⟨k, hk, hposition⟩
    · rw [List.filter_append, hfaulty, List.filter_cons_of_neg (by simp [hfault]), List.filter_nil,
        List.append_nil]

/-- A report made where the passage ends. -/
theorem report (h : Passage r n s) {fault : Fault} (hfault : fault.isOfCharacter = false) :
    Passage r n (s.report fault) :=
  h.reportAt (Nat.le_refl n) hfault (by rw [Reading.position, h.cursor_eq])

end Passage

/-! ## Reading lexemes -/

theorem passage_consumeItem (r : Reading) (item : QuotedItem) :
    Passage r item.chars.length (r.consumeItem item) := by
  cases item with
  | plain c => exact Passage.bump r
  | escape e =>
    have h : Passage r (e.body.length + 1) (r.bump.bumps e.body.length) := by
      rw [Nat.add_comm]
      exact (Passage.bump r).trans (Passage.bumps r.bump e.body.length)
    show Passage r (e.body.length + 1) _
    simp only [consumeItem]
    split
    · exact h
    · exact h.report rfl

theorem passage_foldl_consumeItem (items : List QuotedItem) (r : Reading) :
    Passage r (items.flatMap QuotedItem.chars).length (items.foldl consumeItem r) := by
  induction items generalizing r with
  | nil => exact Passage.refl r
  | cons item items ih =>
    rw [List.foldl_cons, List.flatMap_cons, List.length_append]
    exact (passage_consumeItem r item).trans (ih _)

theorem passage_consumeQuoted (r : Reading) (q : Quoted) :
    Passage r q.chars.length (r.consumeQuoted q) := by
  have hitems : Passage r (1 + q.body.length) (q.items.foldl consumeItem r.bump) :=
    (Passage.bump r).trans (passage_foldl_consumeItem q.items r.bump)
  have hlength : q.chars.length = (1 + q.body.length) + if q.closed then 1 else 0 := by
    rw [Quoted.chars, List.length_append, List.length_cons]
    split
    · simp [Nat.add_comm]
    · simp [Nat.add_comm]
  simp only [hlength, consumeQuoted]
  split
  · exact hitems.trans (Passage.bump _)
  · exact hitems.report rfl

theorem passage_consumeEnclosed (r : Reading) (mark : List Char) {fault : Fault}
    (hfault : fault.isOfCharacter = false) (e : Enclosed) :
    Passage r (e.charsThrough mark).length (r.consumeEnclosed mark fault e) := by
  simp only [consumeEnclosed]
  split
  · exact Passage.skip r _
  · exact (Passage.skip r _).report hfault

/-- The places that faults of a number are reported at are places that a cursor passes. -/
theorem advance_position_eq_across {c : Cursor} {text : List Char} (h : Begins text c.rest)
    {k : Nat} (hk : k ≤ text.length) : (c.advance k).position = c.position.across k := by
  have hlength : (text.take k).length = k := by
    rw [List.length_take]
    omega
  have htake : plainText (c.rest.take k) = text.take k := by
    rw [← h.plainText_take, plainText, plainText, ← List.map_take, List.take_take,
      Nat.min_eq_left (by simpa using hk)]
  rw [Cursor.advance_position, htake,
    Position.locate_eq_across (fun d hd => h.isPlain d (List.mem_of_mem_take hd)), hlength]

theorem passage_consumeNumber {r : Reading} {n : Number} (h : Begins n.text r.rest) :
    Passage r n.text.length (r.consumeNumber n) := by
  -- by now the number has been read, and its faults are reported at places that lie behind
  have hfold : ∀ (faults : List (Nat × Fault)) (s : Reading), (∀ found ∈ faults, n.Fits found) →
      Passage r n.text.length s →
      Passage r n.text.length (faults.foldl
        (fun after found => after.reportAt (r.position.across found.1) found.2) s) := by
    intro faults
    induction faults with
    | nil =>
      intro s _ hs
      exact hs
    | cons found faults ih =>
      intro s hfits hs
      obtain ⟨hindex, hfault⟩ := hfits found List.mem_cons_self
      refine ih _ (fun other hother => hfits other (List.mem_cons_of_mem _ hother)) ?_
      exact hs.reportAt hindex hfault (advance_position_eq_across h hindex).symm
  exact hfold n.faults _ (fun _ hfound => Number.fits_of_mem_faults hfound) (Passage.bumps r _)

theorem exists_read_of_number {mode : Mode} {c : SourceChar} {rest : List SourceChar} {n : Number}
    (h : Lexeme.read mode c rest = .number n) : ∃ floats, n = Number.read floats (c :: rest) := by
  unfold Lexeme.read at h
  repeat' split at h
  all_goals cases h
  · exact ⟨_, rfl⟩
  · exact ⟨_, rfl⟩

/-- Reading the lexeme that a source starts with is a passage over its characters. -/
theorem passage_consume_read (mode : Mode) {r : Reading} {c : SourceChar} {rest : List SourceChar}
    (h : r.rest = c :: rest) :
    Passage r (Lexeme.read mode c rest).chars.length (r.consume (.read mode c rest)) := by
  cases hread : Lexeme.read mode c rest with
  | identifier chars => exact Passage.bumps r _
  | number n =>
    obtain ⟨floats, rfl⟩ := exists_read_of_number hread
    rw [Lexeme.chars, List.length_map]
    apply passage_consumeNumber
    rw [h]
    exact Number.begins_read floats (c :: rest)
  | string q => exact passage_consumeQuoted r q
  | char q =>
    have hquoted := passage_consumeQuoted r q
    simp only [consume, Lexeme.chars]
    split
    · exact hquoted
    · exact hquoted.reportAt (Nat.zero_le _) rfl rfl
  | rawString e =>
    simp only [consume, Lexeme.chars, List.length_cons]
    rw [Nat.add_comm]
    exact (Passage.bump r).trans (passage_consumeEnclosed r.bump Lexeme.backtick rfl e)
  | lineComment e =>
    simp only [consume, Lexeme.chars, List.length_cons]
    rw [Nat.add_comm]
    exact (Passage.bump r).trans (Passage.skip r.bump e.body.length)
  | blockComment e =>
    simp only [consume, Lexeme.chars, List.length_cons]
    rw [Nat.add_assoc, Nat.add_comm]
    have htwo : Passage r 2 r.bump.bump := (Passage.bump r).trans (Passage.bump r.bump)
    exact htwo.trans (passage_consumeEnclosed r.bump.bump Lexeme.blockEnd rfl e)
  | single c => exact Passage.bump r

end Reading

end Lexis
