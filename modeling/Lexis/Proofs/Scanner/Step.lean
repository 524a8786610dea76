import Lexis.Proofs.Lexeme.Gap
import Lexis.Proofs.Source.Places
import Lexis.Scanner

/-!
# One scan, and many

`Scanner.Step` lists what a single scan does: how far it moves the cursor over a gap and over a
lexeme, what it tells of the lexeme, and what it reports on the way. Every scan is such a step
(`Scanner.exists_step`), and everything about runs of a scanner follows from that. `Recorder.scans`
is a run; `Recorder.Ran` is the invariant of all runs (`Recorder.exists_ran`): the cursor has come
straight from the start of the source, and the reports tell of what it passed.
-/

namespace Lexis

/-! ## One scan -/

/-- `scan` is the outcome of a scan that moves `s` over a gap of `skipped` characters and a lexeme
of `taken` characters, and leaves it as `after`. -/
structure Scanner.Step (s : Scanner) (scan : Scan) (after : Scanner) (skipped taken : Nat) :
    Prop where
  config_eq : after.config = s.config
  cursor_eq : after.cursor = s.cursor.advance (skipped + taken)
  start_eq : scan.start = (s.cursor.advance skipped).position
  stop_eq : scan.stop = (s.cursor.advance (skipped + taken)).position
  after_start : after.start = scan.start
  gap : Gap s.config (plainText (s.cursor.rest.take skipped))
    (plainText (s.cursor.rest.drop skipped))
  text_eq : scan.text = plainText ((s.cursor.rest.drop skipped).take taken)
  taken_le : taken ≤ (s.cursor.rest.drop skipped).length
  lexeme : scan.kind ≠ .endOfInput → 0 < taken
  endOfInput : scan.kind = .endOfInput → s.cursor.rest.drop skipped = []
  places : ∀ report ∈ scan.reports,
    ∃ k ≤ skipped + taken, report.position = (s.cursor.advance k).position
  faulty : scan.reports.filter (·.fault.isOfCharacter) =
    SourceChar.reportsFrom s.cursor.position (s.cursor.rest.take (skipped + taken))

namespace Scanner

/-- Every scan is a step. -/
theorem exists_step (s : Scanner) :
    ∃ skipped taken, s.Step s.scan.1 s.scan.2 skipped taken := by
  obtain ⟨skipped, taken, hnext⟩ := Reading.isNext_next s.config (.ofCursor s.cursor)
  -- reading starts without reports, so those at its end are the ones of this scan
  have hwhole := hnext.before.trans hnext.after
  obtain ⟨made, hmade, hplaces, hfaulty⟩ := hwhole.reports_eq
  have hreports : s.scan.1.reports = made := by
    rw [scan, hmade]
    rfl
  have hbefore : ((Reading.ofCursor s.cursor).next s.config).before.rest =
      s.cursor.rest.drop skipped := hnext.before.rest_eq
  refine ⟨skipped, taken, ?_⟩
  constructor
  · rfl
  · exact hwhole.cursor_eq
  · exact congrArg Cursor.position hnext.before.cursor_eq
  · exact congrArg Cursor.position hwhole.cursor_eq
  · rfl
  · rw [← hbefore]
    exact hnext.gap
  · rw [← hbefore]
    exact hnext.text
  · rw [← hbefore]
    exact hnext.taken_le
  · exact hnext.lexeme
  · rw [← hbefore]
    exact hnext.endOfInput
  · rw [hreports]
    exact hplaces
  · rw [hreports]
    exact hfaulty

/-- The end of a lexeme is counted on from its start over its text. -/
theorem Step.stop_eq_locate {s after : Scanner} {scan : Scan} {skipped taken : Nat}
    (h : s.Step scan after skipped taken) : scan.stop = scan.start.locate scan.text := by
  rw [h.stop_eq, h.start_eq, h.text_eq, ← Cursor.advance_advance, Cursor.advance_position,
    Cursor.advance_rest]

/-- A scan that tells the end of the input has passed all that was left. -/
theorem Step.take_eq_rest {s after : Scanner} {scan : Scan} {skipped taken : Nat}
    (h : s.Step scan after skipped taken) (hkind : scan.kind = .endOfInput) :
    s.cursor.rest.take (skipped + taken) = s.cursor.rest := by
  have hlength := List.drop_eq_nil_iff.1 (h.endOfInput hkind)
  apply List.take_of_length_le
  omega

/-- With nothing left to read, a scan tells the end of the input and stays where it is. -/
theorem scan_of_rest_eq_nil {s : Scanner} (h : s.cursor.rest = []) :
    s.scan = (⟨.endOfInput, [], s.position, s.position, []⟩,
      { s with start := s.position, text := [] }) := by
  have hnext : (Reading.ofCursor s.cursor).next s.config =
      ⟨none, .ofCursor s.cursor, .ofCursor s.cursor⟩ := Reading.next_of_rest_eq_nil s.config h
  unfold scan
  rw [hnext]
  rfl

/-- Where a scan tells the end of the input, nothing is left to read. -/
theorem Step.atEnd {s after : Scanner} {scan : Scan} {skipped taken : Nat}
    (h : s.Step scan after skipped taken) (hkind : scan.kind = .endOfInput) :
    after.cursor.rest = [] ∧ scan.text = [] ∧ scan.start = after.position := by
  have hrest := h.endOfInput hkind
  have htaken : taken = 0 := by
    have hle := h.taken_le
    rw [hrest] at hle
    exact Nat.le_zero.1 hle
  subst htaken
  refine ⟨?_, ?_, ?_⟩
  · rw [h.cursor_eq]
    exact hrest
  · rw [h.text_eq, List.take_zero]
    rfl
  · rw [h.start_eq, position, h.cursor_eq]
    rfl

theorem scanAll_of_endOfInput {s : Scanner} (h : s.scan.1.kind = .endOfInput) :
    s.scanAll = ([s.scan.1], s.scan.2) := by
  rw [scanAll]
  simp [h]

theorem scanAll_of_lexeme {s : Scanner} (h : s.scan.1.kind ≠ .endOfInput) :
    s.scanAll = (s.scan.1 :: s.scan.2.scanAll.1, s.scan.2.scanAll.2) := by
  rw [scanAll]
  simp [h]

/-- A run comes to its end, so what holds there and is handed back by every scan holds from the
start. -/
@[elab_as_elim]
theorem run_induction {motive : Scanner → Prop}
    (endOfInput : ∀ s, s.scan.1.kind = .endOfInput → motive s)
    (lexeme : ∀ s, s.scan.1.kind ≠ .endOfInput → motive s.scan.2 → motive s) (s : Scanner) :
    motive s := by
  generalize hlength : s.cursor.rest.length = length
  induction length using Nat.strong_induction_on generalizing s with
  | h length ih =>
    by_cases hend : s.scan.1.kind = .endOfInput
    · exact endOfInput s hend
    · exact lexeme s hend (ih _ (hlength ▸ s.length_scan_rest_lt hend) _ rfl)

end Scanner

/-! ## Runs -/

/-- The recorder after a number of scans. -/
def Recorder.scans (r : Recorder) : Nat → Recorder
  | 0 => r
  | n + 1 => (r.scans n).scan.2

/-- The recorder has come over `passed` characters of a source, from its start. -/
structure Recorder.Ran (r : Recorder) (config : Config) (source : Source) (passed : Nat) :
    Prop where
  config_eq : r.scanner.config = config
  cursor_eq : r.scanner.cursor = source.cursor.advance passed
  start_eq : ∃ k ≤ passed, r.scanner.start = (source.cursor.advance k).position
  places : ∀ report ∈ r.held.toList,
    ∃ k ≤ passed, report.position = (source.cursor.advance k).position
  faulty : r.held.toList.filter (·.fault.isOfCharacter) =
    SourceChar.reportsFrom source.cursor.position (source.cursor.rest.take passed)

namespace Recorder

variable {config : Config} {source : Source}

theorem ran_ofSource (config : Config) (source : Source) :
    (ofSource config source).Ran config source 0 where
  config_eq := rfl
  cursor_eq := rfl
  start_eq := ⟨0, Nat.le_refl 0, rfl⟩
  places := fun _ h => by cases h
  faulty := rfl

/-- A scan goes on from where the run has come to. -/
theorem Ran.scan {r : Recorder} {passed : Nat} (h : r.Ran config source passed) :
    ∃ more, r.scan.2.Ran config source (passed + more) := by
  obtain ⟨skipped, taken, hstep⟩ := r.scanner.exists_step
  have hheld : r.scan.2.held.toList = r.held.toList ++ r.scanner.scan.1.reports :=
    Array.toList_appendList
  have hadvance : ∀ k, r.scanner.cursor.advance k = source.cursor.advance (passed + k) := by
    intro k
    rw [h.cursor_eq, Cursor.advance_advance]
  refine ⟨skipped + taken, ?_⟩
  constructor
  · exact hstep.config_eq.trans h.config_eq
  · exact hstep.cursor_eq.trans (hadvance _)
  · refine ⟨passed + skipped, by omega, ?_⟩
    rw [← hadvance]
    exact hstep.after_start.trans hstep.start_eq
  · intro report hreport
    rw [hheld, List.mem_append] at hreport
    rcases hreport with hr | hr
    · obtain ⟨k, hk, hp⟩ := h.places report hr
      exact ⟨k, by omega, hp⟩
    · obtain ⟨k, hk, hp⟩ := hstep.places report hr
      exact ⟨passed + k, by omega, hp.trans (congrArg Cursor.position (hadvance k))⟩
  -- the reports so far are about what was passed so far, and the new ones go on from there
  · have htake : source.cursor.rest.take (passed + (skipped + taken)) =
        source.cursor.rest.take passed ++ (source.cursor.rest.drop passed).take (skipped + taken) :=
      List.take_add
    rw [hheld, List.filter_append, h.faulty, hstep.faulty, h.cursor_eq, htake,
      SourceChar.reportsFrom_append]
    rfl

/-- Every run has come some way from the start of the source. -/
theorem exists_ran (config : Config) (source : Source) (n : Nat) :
    ∃ passed, ((ofSource config source).scans n).Ran config source passed := by
  induction n with
  | zero => exact ⟨0, ran_ofSource config source⟩
  | succ n ih =>
    obtain ⟨passed, hran⟩ := ih
    obtain ⟨more, hmore⟩ := hran.scan
    exact ⟨passed + more, hmore⟩

end Recorder

end Lexis
