import Lexis.Proofs.Scanner.Step
import Lexis.Proofs.Source.Offsets

/-!
# What runs report

Two things hold of the reports after any number of scans. Their positions are true, as are those
that the scanner shows. And the NULs and the bytes that are no UTF-8 which the scanner has passed
are reported, each once and in order (`Recorder.faultsReported_scans`): `SourceChar.reportsFrom`
lists the reports about characters that are due, and `Recorder.Ran.faulty` says that those are the
ones made.
-/

namespace Lexis

/-! ## Positions -/

/-- Every position that a scanner shows, or has ever made a report with, is true. -/
theorem Recorder.isTrue_scans (config : Config) (source : Source) (n : Nat) :
    let state := (ofSource config source).scans n
    state.scanner.start.IsTrue source ∧ state.scanner.position.IsTrue source ∧
      ∀ report ∈ state.held.toList, report.position.IsTrue source := by
  intro state
  obtain ⟨passed, hran⟩ := exists_ran config source n
  refine ⟨?_, ?_, ?_⟩
  · obtain ⟨k, -, hstart⟩ := hran.start_eq
    rw [hstart]
    exact source.isTrue_advance k
  · rw [Scanner.position, hran.cursor_eq]
    exact source.isTrue_advance passed
  · intro report hreport
    obtain ⟨k, -, hposition⟩ := hran.places report hreport
    rw [hposition]
    exact source.isTrue_advance k

/-! ## Faults of characters -/

namespace SourceChar

theorem fault?_eq_nulCharacter (c : SourceChar) :
    (c.fault? == some .nulCharacter) = (c.char == '\x00') := by
  cases c with
  | valid c =>
    by_cases hc : c = '\x00'
    · subst hc
      rfl
    · have hnul : isNul (.valid c) = false := by
        simpa [isNul] using hc
      have hchar : (valid c).char ≠ '\x00' := hc
      simp [fault?, hnul, hchar, isReplaced]
  | replaced bytes => rfl

theorem fault?_eq_invalidUtf8 (c : SourceChar) :
    (c.fault? == some .invalidUtf8) = c.isReplaced := by
  cases c with
  | valid c =>
    by_cases hc : isNul (.valid c) = true
    · simp [fault?, hc, isReplaced]
    · simp [fault?, hc, isReplaced]
  | replaced bytes => rfl

theorem fault?_eq_none_iff (c : SourceChar) :
    c.fault? = none ↔ ∃ d, c = .valid d ∧ d ≠ '\x00' := by
  cases c with
  | valid c =>
    by_cases hc : c = '\x00'
    · simp [fault?, isNul, hc]
    · simp [fault?, isNul, isReplaced, hc]
  | replaced bytes => simp [fault?, isNul, isReplaced]

/-- The reports about one kind of fault stand where the characters with that fault do. -/
theorem offsets_reportsFrom (fault : Fault) (position : Position) (chunk : List SourceChar) :
    ((reportsFrom position chunk).filter (·.fault == fault)).map (·.position.offset) =
      offsetsFrom (fun c => c.fault? == some fault) position.offset chunk := by
  induction chunk generalizing position with
  | nil => rfl
  | cons c chunk ih =>
    have hnext : (position.next c.char).offset = position.offset + c.size := by
      rw [Position.next_eq_locate]
      rfl
    rw [reportsFrom_cons, offsetsFrom_cons, List.filter_append, List.map_append, ih, hnext]
    congr 1
    cases c.fault? with
    | none => rfl
    | some other =>
      by_cases hother : other = fault
      · simp [hother]
      · simp [hother]

theorem reportsFrom_eq_nil_iff {position : Position} {chunk : List SourceChar} :
    reportsFrom position chunk = [] ↔ ∀ c ∈ chunk, c.fault? = none := by
  induction chunk generalizing position with
  | nil => simp
  | cons c chunk ih =>
    rw [reportsFrom_cons, List.append_eq_nil_iff, ih, List.forall_mem_cons]
    cases c.fault? with
    | none => simp
    | some fault => simp

/-- Nothing is reported of a text without a NUL. -/
theorem reportsFrom_eq_nil_of_not_mem {text : List Char} (h : '\x00' ∉ text) (position : Position) :
    reportsFrom position (text.map .valid) = [] := by
  rw [reportsFrom_eq_nil_iff]
  intro c hc
  obtain ⟨d, hd, rfl⟩ := List.mem_map.1 hc
  have hnul : d ≠ '\x00' := fun heq => h (heq ▸ hd)
  exact (fault?_eq_none_iff _).2 ⟨d, rfl, hnul⟩

end SourceChar

namespace Recorder

/-- The byte offsets at which one kind of fault was reported, in order. -/
def offsetsOf (r : Recorder) (fault : Fault) : List Nat :=
  (r.held.toList.filter (·.fault == fault)).map (·.position.offset)

/-- Whether a byte offset lies between the byte order mark and the place the scanner has come to. -/
def HasPassed (r : Recorder) (source : Source) (offset : Nat) : Prop :=
  source.markSize ≤ offset ∧ offset < r.scanner.position.offset

instance (r : Recorder) (source : Source) : DecidablePred (r.HasPassed source) :=
  fun _ => instDecidableAnd

/-- The faulty characters that were passed, and they only, have been reported, each once and in
order. -/
structure FaultsReported (r : Recorder) (source : Source) : Prop where
  nul : r.offsetsOf .nulCharacter =
    (source.offsetsOf (·.char == '\x00')).filter (r.HasPassed source)
  invalid : r.offsetsOf .invalidUtf8 =
    ((source.issues.filter (·.kind == .invalidUtf8)).map Issue.position).filter
      (r.HasPassed source)
  /-- A replacement character that the source holds itself is no fault. -/
  replacement : ∀ before after, source.chars = before ++ .valid SourceChar.replacement :: after →
    ∀ report ∈ r.held.toList, report.fault.isOfCharacter = true →
      report.position.offset ≠ byteSize (plainText before)

variable {config : Config} {source : Source}

/-- What was reported about one kind of fault that characters have. -/
theorem Ran.offsetsOf_eq {r : Recorder} {passed : Nat} (h : r.Ran config source passed)
    {fault : Fault} (hfault : fault.isOfCharacter = true) :
    r.offsetsOf fault =
      (source.offsetsOf (fun c => c.fault? == some fault)).filter (r.HasPassed source) := by
  have hheld : r.held.toList.filter (·.fault == fault) =
      (r.held.toList.filter (·.fault.isOfCharacter)).filter (·.fault == fault) := by
    -- a report about this kind of fault is one about a character
    rw [List.filter_filter]
    apply List.filter_congr
    intro report _
    by_cases hreport : report.fault = fault
    · simp [hreport, hfault]
    · simp [hreport]
  have hpassed : r.HasPassed source = fun o =>
      source.markSize ≤ o ∧ o < (source.cursor.advance passed).position.offset := by
    funext o
    rw [HasPassed, Scanner.position, h.cursor_eq]
  have hoffsets := source.filter_offsetsOf (p := fun c => c.fault? == some fault) passed
  rw [offsetsOf, hheld, h.faulty, SourceChar.offsets_reportsFrom]
  simp only [hpassed]
  exact hoffsets.symm

theorem Ran.faultsReported {r : Recorder} {passed : Nat} (h : r.Ran config source passed) :
    r.FaultsReported source where
  nul := by
    rw [h.offsetsOf_eq rfl]
    simp only [SourceChar.fault?_eq_nulCharacter]
  invalid := by
    rw [h.offsetsOf_eq rfl, Source.offsets_issues]
    simp only [SourceChar.fault?_eq_invalidUtf8]
  replacement := by
    intro before after hchars report hreport hfault hoffset
    have hmem : report.position.offset ∈ r.offsetsOf report.fault := by
      rw [offsetsOf, List.mem_map]
      exact ⟨report, List.mem_filter.2 ⟨hreport, beq_self_eq_true _⟩, rfl⟩
    rw [h.offsetsOf_eq hfault, List.mem_filter] at hmem
    obtain ⟨before', c, after', hchars', hc, ho⟩ := exists_of_mem_offsetsFrom hmem.1
    -- the two characters stand at the same offset, so they are the same
    rw [Nat.zero_add] at ho
    obtain ⟨-, hrest⟩ := Source.eq_of_byteSize_eq hchars' hchars (ho.symm.trans hoffset)
    injection hrest with hchar
    rw [hchar] at hc
    cases hc

theorem faultsReported_scans (config : Config) (source : Source) (n : Nat) :
    ((ofSource config source).scans n).FaultsReported source := by
  obtain ⟨passed, hran⟩ := exists_ran config source n
  exact hran.faultsReported

end Recorder

/-! ## Scanning to the end -/

namespace Scanner

/-- Scanned up to the end, a source has every faulty character reported. -/
theorem filter_reports_scanAll (s : Scanner) :
    (s.scanAll.1.flatMap Scan.reports).filter (·.fault.isOfCharacter) =
      SourceChar.reportsFrom s.cursor.position s.cursor.rest := by
  induction s using run_induction with
  | endOfInput s hend =>
    obtain ⟨skipped, taken, hstep⟩ := s.exists_step
    rw [scanAll_of_endOfInput hend, List.flatMap_singleton, hstep.faulty,
      hstep.take_eq_rest hend]
  | lexeme s hlexeme ih =>
    obtain ⟨skipped, taken, hstep⟩ := s.exists_step
    rw [scanAll_of_lexeme hlexeme, List.flatMap_cons, List.filter_append, hstep.faulty, ih,
      hstep.cursor_eq, Cursor.advance_position, Cursor.advance_rest,
      ← SourceChar.reportsFrom_append, List.take_append_drop]

end Scanner

end Lexis
