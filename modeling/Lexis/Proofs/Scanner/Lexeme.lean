import Lexis.Proofs.Lexeme.Reports
import Lexis.Proofs.Scanner.Step

/-!
# The lexeme of a scan

A scan that does not tell the end of the input comes to a character and tells of the lexeme that
starts there (`Scanner.Finds`). What it reports falls into two parts: the faulty characters of the
gap before the lexeme, and what the lexeme itself gives rise to, which is all that is reported at or
behind its start (`Scan.ownReports`). The scans of a source are numbered (`Source.nthScan`), and
each of them tells of a lexeme at some place of the source (`Source.exists_lexeme`).
-/

namespace Lexis

/-- What was reported at or behind the start of the lexeme. -/
def Scan.ownReports (scan : Scan) : List Report :=
  scan.reports.filter fun report => scan.start.offset ≤ report.position.offset

namespace Scanner

/-! ## One scan -/

/-- The next scan finds its lexeme behind `skipped` characters, where `c` stands and `rest` behind
it. -/
structure Finds (s : Scanner) (skipped : Nat) (c : SourceChar) (rest : List SourceChar) :
    Prop where
  rest_eq : (s.cursor.advance skipped).rest = c :: rest
  kind_eq : s.scan.1.kind = (Lexeme.read s.config.mode c rest).kind
  text_eq : s.scan.1.text = (Lexeme.read s.config.mode c rest).text
  start_eq : s.scan.1.start = (s.cursor.advance skipped).position
  reports_eq : s.scan.1.reports =
    SourceChar.reportsFrom s.cursor.position (s.cursor.rest.take skipped) ++
      (Lexeme.read s.config.mode c rest).reportsAt (s.cursor.advance skipped)
  config_eq : s.scan.2.config = s.config
  cursor_eq : s.scan.2.cursor =
    (s.cursor.advance skipped).advance (Lexeme.read s.config.mode c rest).chars.length

/-- What is found when the source is read on is what the scan finds. -/
theorem finds_of_next {s : Scanner} {skipped : Nat} {c : SourceChar} {rest : List SourceChar}
    (hrest : (s.cursor.advance skipped).rest = c :: rest)
    (hnext : (Reading.ofCursor s.cursor).next s.config =
      ⟨some (.read s.config.mode c rest), (Reading.ofCursor s.cursor).bumps skipped,
        ((Reading.ofCursor s.cursor).bumps skipped).consume (.read s.config.mode c rest)⟩) :
    s.Finds skipped c rest := by
  have hcursor : ((Reading.ofCursor s.cursor).bumps skipped).cursor = s.cursor.advance skipped :=
    Reading.bumps_cursor _ _
  constructor
  · exact hrest
  · rw [scan, hnext]
    rfl
  · rw [scan, hnext]
    rfl
  · rw [scan, hnext]
    exact congrArg Cursor.position hcursor
  · rw [scan, hnext]
    dsimp only
    rw [Reading.reports_consume, hcursor, Reading.bumps_reports]
    rfl
  · rfl
  · have hpassage := Reading.passage_consume_read s.config.mode
      (r := (Reading.ofCursor s.cursor).bumps skipped) (hcursor ▸ hrest)
    rw [scan, hnext]
    dsimp only
    rw [hpassage.cursor_eq, hcursor]

/-- Every scan before the end of the input finds a lexeme that is not passed over. -/
theorem exists_finds {s : Scanner} (h : s.scan.1.kind ≠ .endOfInput) :
    ∃ skipped c rest, s.Finds skipped c rest ∧ s.config.passesOver c rest = false := by
  have hlexeme : ((Reading.ofCursor s.cursor).next s.config).lexeme? ≠ none := by
    intro hnone
    refine h ?_
    simp [scan, Found.kind, hnone]
  obtain ⟨skipped, c, rest, hrest, hshown, hnext⟩ :=
    Reading.exists_lexeme s.config (.ofCursor s.cursor) hlexeme
  exact ⟨skipped, c, rest, finds_of_next hrest hnext, hshown⟩

/-- A lexeme that is not passed over is what the next scan finds behind blanks. -/
theorem finds_of_blanks {s : Scanner} {blanks : List SourceChar} {c : SourceChar}
    {rest : List SourceChar} (hrest : s.cursor.rest = blanks ++ c :: rest)
    (hblanks : ∀ b ∈ blanks, s.config.isWhitespace b.char = true)
    (hshown : s.config.passesOver c rest = false) : s.Finds blanks.length c rest := by
  refine finds_of_next ?_ (Reading.next_of_blanks hrest hblanks hshown)
  rw [Cursor.advance_rest, hrest, List.drop_left]

/-- Where nothing but blanks is left, the next scan tells the end of the input. -/
theorem scan_of_only_blanks {s : Scanner}
    (hblanks : ∀ b ∈ s.cursor.rest, s.config.isWhitespace b.char = true) :
    let stop := (s.cursor.advance s.cursor.rest.length).position
    s.scan.1 = ⟨.endOfInput, [], stop, stop,
      SourceChar.reportsFrom s.cursor.position s.cursor.rest⟩ := by
  have hnext : (Reading.ofCursor s.cursor).next s.config =
      ⟨none, (Reading.ofCursor s.cursor).bumps s.cursor.rest.length,
        (Reading.ofCursor s.cursor).bumps s.cursor.rest.length⟩ :=
    Reading.next_of_only_blanks hblanks
  have hstop : ((Reading.ofCursor s.cursor).bumps s.cursor.rest.length).position =
      (s.cursor.advance s.cursor.rest.length).position :=
    congrArg Cursor.position (Reading.bumps_cursor _ _)
  rw [scan, hnext]
  dsimp only
  rw [hstop, Reading.bumps_reports]
  show Scan.mk _ _ _ _ ([] ++ SourceChar.reportsFrom s.cursor.position (s.cursor.rest.take _)) = _
  rw [List.take_length, List.nil_append]
  rfl

namespace Finds

variable {s : Scanner} {skipped : Nat} {c : SourceChar} {rest : List SourceChar}

theorem skipped_lt (h : s.Finds skipped c rest) : skipped < s.cursor.rest.length := by
  have hlength := congrArg List.length h.rest_eq
  rw [Cursor.advance_rest, List.length_drop, List.length_cons] at hlength
  omega

/-- What is reported of the gap before a lexeme is reported before the start of the lexeme. -/
theorem lt_start_of_mem_gap (h : s.Finds skipped c rest) {report : Report}
    (hreport : report ∈
      SourceChar.reportsFrom s.cursor.position (s.cursor.rest.take skipped)) :
    report.position.offset < s.scan.1.start.offset := by
  obtain ⟨k, hk, hposition⟩ := SourceChar.position_of_mem_reportsFrom hreport
  rw [List.length_take] at hk
  have hskipped := h.skipped_lt
  have hadvance : report.position = (s.cursor.advance k).position := by
    rw [hposition, List.take_take, Nat.min_eq_left (by omega)]
    rfl
  rw [hadvance, h.start_eq]
  exact s.cursor.offset_advance_lt (by omega) (by omega)

/-- What a lexeme gives rise to is reported at or behind its start. -/
theorem start_le_of_mem_lexeme (h : s.Finds skipped c rest) {report : Report}
    (hreport : report ∈
      (Lexeme.read s.config.mode c rest).reportsAt (s.cursor.advance skipped)) :
    s.scan.1.start.offset ≤ report.position.offset := by
  obtain ⟨k, -, hposition⟩ := Reading.places_of_reportsAt s.config.mode h.rest_eq hreport
  rw [hposition, h.start_eq]
  exact (s.cursor.advance skipped).offset_advance_le (Nat.zero_le k)

/-- What is reported at or behind the start of a lexeme are the reports of the lexeme. -/
theorem ownReports_eq (h : s.Finds skipped c rest) :
    s.scan.1.ownReports =
      (Lexeme.read s.config.mode c rest).reportsAt (s.cursor.advance skipped) := by
  have hgap : (SourceChar.reportsFrom s.cursor.position (s.cursor.rest.take skipped)).filter
      (fun report => s.scan.1.start.offset ≤ report.position.offset) = [] := by
    rw [List.filter_eq_nil_iff]
    intro report hreport
    rw [decide_eq_true_eq]
    exact Nat.not_le.2 (h.lt_start_of_mem_gap hreport)
  have hlexeme : ((Lexeme.read s.config.mode c rest).reportsAt (s.cursor.advance skipped)).filter
      (fun report => s.scan.1.start.offset ≤ report.position.offset) =
      (Lexeme.read s.config.mode c rest).reportsAt (s.cursor.advance skipped) := by
    rw [List.filter_eq_self]
    intro report hreport
    rw [decide_eq_true_eq]
    exact h.start_le_of_mem_lexeme hreport
  rw [Scan.ownReports, h.reports_eq, List.filter_append, hgap, hlexeme, List.nil_append]

/-- Before what a lexeme gives rise to, only faulty characters of the gap before it are reported. -/
theorem reports_eq_append (h : s.Finds skipped c rest) :
    ∃ gap, s.scan.1.reports = gap ++ s.scan.1.ownReports ∧
      ∀ report ∈ gap, report.position.offset < s.scan.1.start.offset ∧
        report.fault.isOfCharacter = true := by
  refine ⟨_, ?_, fun report hreport => ⟨h.lt_start_of_mem_gap hreport, ?_⟩⟩
  · rw [h.ownReports_eq]
    exact h.reports_eq
  · exact SourceChar.isOfCharacter_of_mem_reportsFrom hreport

end Finds

end Scanner

/-! ## The scans of a source -/

/-- The scanner after `n` scans of a source. -/
def Source.scannerAfter (source : Source) (config : Config) (n : Nat) : Scanner :=
  ((Recorder.ofSource config source).scans n).scanner

/-- The outcome of the scan of a source that comes after `n` others. -/
def Source.nthScan (source : Source) (config : Config) (n : Nat) : Scan :=
  (source.scannerAfter config n).scan.1

/-- The scan tells of the lexeme that starts with `c`, where `rest` follows, at a cursor. -/
structure Scan.IsAt (scan : Scan) (mode : Mode) (cursor : Cursor) (c : SourceChar)
    (rest : List SourceChar) : Prop where
  rest_eq : cursor.rest = c :: rest
  kind_eq : scan.kind = (Lexeme.read mode c rest).kind
  text_eq : scan.text = (Lexeme.read mode c rest).text
  start_eq : scan.start = cursor.position
  ownReports_eq : scan.ownReports = (Lexeme.read mode c rest).reportsAt cursor
  reports_eq : ∃ gap, scan.reports = gap ++ scan.ownReports ∧
    ∀ report ∈ gap, report.position.offset < scan.start.offset ∧
      report.fault.isOfCharacter = true

namespace Source

theorem exists_scannerAfter (source : Source) (config : Config) (n : Nat) :
    ∃ passed, (source.scannerAfter config n).config = config ∧
      (source.scannerAfter config n).cursor = source.cursor.advance passed := by
  obtain ⟨passed, hran⟩ := Recorder.exists_ran config source n
  exact ⟨passed, hran.config_eq, hran.cursor_eq⟩

/-- Each scan of a source that does not tell its end tells of a lexeme at some place of it. -/
theorem exists_lexeme (source : Source) (config : Config) (n : Nat)
    (h : (source.nthScan config n).kind ≠ .endOfInput) :
    ∃ place c rest,
      (source.nthScan config n).IsAt config.mode (source.cursor.advance place) c rest := by
  obtain ⟨passed, hconfig, hcursor⟩ := source.exists_scannerAfter config n
  obtain ⟨skipped, c, rest, hfinds, -⟩ := Scanner.exists_finds h
  have hplace : (source.scannerAfter config n).cursor.advance skipped =
      source.cursor.advance (passed + skipped) := by
    rw [hcursor, Cursor.advance_advance]
  have hkind := hfinds.kind_eq
  have htext := hfinds.text_eq
  have hreports := hfinds.ownReports_eq
  rw [hconfig] at hkind htext hreports
  refine ⟨passed + skipped, c, rest, ?_⟩
  rw [← hplace]
  exact ⟨hfinds.rest_eq, hkind, htext, hfinds.start_eq, hreports, hfinds.reports_eq_append⟩

/-- Where characters are left behind the start of a scan, they are those of a lexeme and of what
follows it. -/
theorem exists_lexeme_of_slice? {source : Source} {config : Config} {n : Nat} {first : Char}
    {more : List Char}
    (h : source.slice? (source.nthScan config n).start.offset source.size =
      some (first :: more)) :
    ∃ place c rest,
      (source.nthScan config n).IsAt config.mode (source.cursor.advance place) c rest ∧
        c.char = first ∧ plainText rest = more := by
  have hkind : (source.nthScan config n).kind ≠ .endOfInput := by
    intro hend
    obtain ⟨passed, -, hcursor⟩ := source.exists_scannerAfter config n
    obtain ⟨skipped, taken, hstep⟩ := (source.scannerAfter config n).exists_step
    obtain ⟨hrest, -, hstart⟩ := hstep.atEnd hend
    have hafter := hstep.cursor_eq
    rw [hcursor, Cursor.advance_advance] at hafter
    have hslice := source.slice?_advance_size (passed + (skipped + taken))
    rw [← Cursor.advance_rest, ← hafter, hrest] at hslice
    have hplace : (source.nthScan config n).start = _ := hstart
    rw [hplace, Scanner.position, hslice] at h
    cases h
  obtain ⟨place, c, rest, hat⟩ := source.exists_lexeme config n hkind
  have hslice := source.slice?_advance_size place
  rw [← Cursor.advance_rest, ← hat.start_eq, hat.rest_eq, h] at hslice
  cases hslice
  exact ⟨place, c, rest, hat, rfl, rfl⟩

end Source

end Lexis
