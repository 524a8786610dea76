import Lexis.Lexeme.Found

/-!
# Scanners

A scanner cuts a source into lexemes, one for each call of `Scanner.scan`, and reports what is wrong
on the way. At the end of the input it keeps answering that the input has ended.
-/

namespace Lexis

/-- The outcome of one scan. -/
structure Scan where
  kind : Kind
  /-- The characters of the lexeme, delimiters included. -/
  text : List Char
  /-- Where the lexeme starts. -/
  start : Position
  /-- Where the lexeme ends. -/
  stop : Position
  /-- What was reported since the scan before, in order. -/
  reports : List Report
deriving DecidableEq, Repr

/-- A source that is being cut into lexemes. -/
structure Scanner where
  config : Config
  cursor : Cursor
  /-- Where the latest lexeme starts. -/
  start : Position
  /-- The characters of the latest lexeme. -/
  text : List Char
  /-- Number of reports made so far. -/
  errorCount : Nat
deriving DecidableEq, Repr

namespace Scanner

/-- The scanner that has not scanned anything yet. -/
def ofSource (config : Config) (source : Source) : Scanner where
  config := config
  cursor := source.cursor
  start := source.cursor.position
  text := []
  errorCount := 0

/-- Where the scanner has come to. -/
def position (s : Scanner) : Position := s.cursor.position

/-- Scans the next lexeme. -/
def scan (s : Scanner) : Scan × Scanner :=
  let found := (Reading.ofCursor s.cursor).next s.config
  let reports := found.after.reports.toList
  (⟨found.kind, found.text, found.before.position, found.after.position, reports⟩,
    { s with
      cursor := found.after.cursor
      start := found.before.position
      text := found.text
      errorCount := s.errorCount + reports.length })

/-- Every scan before the end of the input brings the scanner ahead. -/
theorem length_scan_rest_lt (s : Scanner) (h : s.scan.1.kind ≠ .endOfInput) :
    s.scan.2.cursor.rest.length < s.cursor.rest.length := by
  refine Reading.length_next_rest_lt s.config (.ofCursor s.cursor) fun hnone => h ?_
  simp [scan, Found.kind, hnone]

/-- Scans up to the end of the input, and tells that end too. -/
def scanAll (s : Scanner) : List Scan × Scanner :=
  match hs : s.scan with
  | (scan, after) =>
    if hk : scan.kind = .endOfInput then ([scan], after)
    else
      have : after.cursor.rest.length < s.cursor.rest.length := by
        have h := length_scan_rest_lt s
        rw [hs] at h
        exact h hk
      let (scans, last) := scanAll after
      (scan :: scans, last)
termination_by s.cursor.rest.length

end Scanner

/-- A scanner together with the reports that have been made and not been cleared away. -/
structure Recorder where
  scanner : Scanner
  held : Array Report
deriving DecidableEq, Repr

namespace Recorder

/-- The recorder that has not scanned anything yet. -/
def ofSource (config : Config) (source : Source) : Recorder :=
  ⟨.ofSource config source, #[]⟩

/-- Scans the next lexeme and holds on to what is reported. -/
def scan (r : Recorder) : Scan × Recorder :=
  let (scan, scanner) := r.scanner.scan
  (scan, ⟨scanner, r.held ++ scan.reports⟩)

/-- Clears the reports away. The scanner's count of them stays. -/
def clear (r : Recorder) : Recorder :=
  { r with held := #[] }

end Recorder

end Lexis
