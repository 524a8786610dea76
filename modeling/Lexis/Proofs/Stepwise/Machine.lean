import Mathlib.Data.Nat.Find
import Lexis.Proofs.Scanner.Lexeme
import Lexis.Proofs.Stepwise.Scan

/-!
# A scanner that goes step by step

A machine scans a source in the steps of `Stepper.scan?`. Between its scans it may be asked for the
text of the latest lexeme, for the start of that and for its own position. Whatever it is asked, no
step of it fails and each of its loops is left, it answers what a scanner does, and its offsets stay
between the byte order mark and the end of its source (`Scanner.Latest.run?_machine`). As every
lexeme brings it ahead, it comes to the end, and there it stays (`Source.scanning_ends`).
-/

namespace Lexis

namespace Scanner

/-- What a scanner can be asked for. -/
inductive Request where
  /-- The next lexeme. -/
  | scan
  /-- The text of the latest lexeme. -/
  | text
  /-- The start of the latest lexeme. -/
  | start
  /-- The place that the scanner has come to. -/
  | position
deriving DecidableEq, Repr

/-- What a scanner answers. -/
inductive Answer where
  | scanned (kind : Kind) (reports : List Report)
  | text (text : List Char)
  | position (position : Position)
deriving DecidableEq, Repr

/-- The answer to a request, and the scanner after it. -/
def answer (s : Scanner) : Request → Answer × Scanner
  | .scan => (.scanned s.scan.1.kind s.scan.1.reports, s.scan.2)
  | .text => (.text s.text, s)
  | .start => (.position s.start, s)
  | .position => (.position s.position, s)

/-- The answers to requests that are made one after the other, and the scanner after them. -/
def run : List Request → Scanner → List Answer × Scanner
  | [], s => ([], s)
  | request :: requests, s =>
    let (answers, last) := run requests (s.answer request).2
    ((s.answer request).1 :: answers, last)

end Scanner

/-- A scanner that goes step by step. -/
structure Machine where
  config : Config
  source : Source
  position : Position
  /-- Where the latest lexeme starts. -/
  start : Position
  /-- The offset where the latest lexeme ends. -/
  stop : Nat
  /-- Number of reports made so far. -/
  errorCount : Nat
deriving DecidableEq, Repr

namespace Machine

/-- The machine that has not scanned anything yet. -/
def ofSource (config : Config) (source : Source) : Machine where
  config := config
  source := source
  position := source.cursor.position
  start := source.cursor.position
  stop := source.cursor.position.offset
  errorCount := 0

/-- Scans the next lexeme. The loops go round so many times at most. -/
def scan? (rounds : Nat) (m : Machine) : Option (Kind × List Report × Machine) := do
  let (kind, start, after) ← Stepper.scan? m.config rounds (Head.mk m.source m.position #[])
  let reports := after.reports.toList
  return (kind, reports,
    { m with
      position := after.position
      start := start
      stop := after.position.offset
      errorCount := m.errorCount + reports.length })

/-- The text of the latest lexeme, cut out of the source. -/
def text? (m : Machine) : Option (List Char) :=
  m.source.slice? m.start.offset m.stop

/-- The answer to a request, and the machine after it. -/
def answer? (rounds : Nat) (m : Machine) : Scanner.Request → Option (Scanner.Answer × Machine)
  | .scan => do
    let (kind, reports, after) ← m.scan? rounds
    return (.scanned kind reports, after)
  | .text => do return (.text (← m.text?), m)
  | .start => return (.position m.start, m)
  | .position => return (.position m.position, m)

/-- The answers to requests that are made one after the other, and the machine after them. -/
def run? (rounds : Nat) : List Scanner.Request → Machine → Option (List Scanner.Answer × Machine)
  | [], m => some ([], m)
  | request :: requests, m => do
    let (answer, after) ← m.answer? rounds request
    let (answers, last) ← run? rounds requests after
    return (answer :: answers, last)

/-- The offsets of a machine are in order between the byte order mark and the end of its source, and
none of them stands inside a character. -/
structure InBounds (m : Machine) : Prop where
  mark_le : m.source.markSize ≤ m.start.offset
  start_le : m.start.offset ≤ m.stop
  stop_le : m.stop ≤ m.position.offset
  le_size : m.position.offset ≤ m.source.size
  boundaries : ∀ offset ∈ [m.source.markSize, m.start.offset, m.stop, m.position.offset],
    m.source.IsBoundary offset

end Machine

namespace Scanner

/-- The machine that has come as far as a scanner. -/
def machine (s : Scanner) : Machine where
  config := s.config
  source := s.cursor.source
  position := s.position
  start := s.start
  stop := s.position.offset
  errorCount := s.errorCount

/-- The latest lexeme of the scanner stands behind `before` characters of a source and is made of
the next `taken` characters, and no more than these have been passed. -/
structure Latest (s : Scanner) (source : Source) (before taken : Nat) : Prop where
  cursor_eq : s.cursor = source.cursor.advance (before + taken)
  start_eq : s.start = (source.cursor.advance before).position
  text_eq : s.text = plainText ((source.cursor.rest.drop before).take taken)

variable {source : Source} {s : Scanner} {before taken rounds : Nat}

theorem latest_ofSource (config : Config) (source : Source) :
    (ofSource config source).Latest source 0 0 where
  cursor_eq := rfl
  start_eq := rfl
  text_eq := rfl

/-- A scan passes over a gap, and then over the lexeme that is the latest from there on. -/
theorem Latest.scan (h : s.Latest source before taken) :
    ∃ skipped more, s.scan.2.Latest source (before + taken + skipped) more := by
  obtain ⟨skipped, more, hstep⟩ := s.exists_step
  have hadvance (k : Nat) : s.cursor.advance k = source.cursor.advance (before + taken + k) := by
    rw [h.cursor_eq, Cursor.advance_advance]
  refine ⟨skipped, more, ?_, ?_, ?_⟩
  · rw [hstep.cursor_eq, hadvance, Nat.add_assoc (before + taken)]
  · rw [hstep.after_start, hstep.start_eq, hadvance]
  · have htext : s.scan.2.text = s.scan.1.text := rfl
    rw [htext, hstep.text_eq, h.cursor_eq, Cursor.advance_rest, List.drop_drop]

theorem Latest.source_eq (h : s.Latest source before taken) : s.cursor.source = source := by
  rw [h.cursor_eq]
  rfl

/-- Between its scans, a machine is in bounds. -/
theorem Latest.inBounds (h : s.Latest source before taken) : s.machine.InBounds := by
  have hsource : s.machine.source = source := h.source_eq
  have hstart := source.isTrue_advance before
  have hposition := source.isTrue_advance (before + taken)
  have hgrow := source.offset_advance_add before taken
  rw [← h.start_eq] at hstart hgrow
  rw [← h.cursor_eq] at hposition hgrow
  constructor
  · rw [hsource]
    exact hstart.markSize_le
  · show s.start.offset ≤ s.cursor.position.offset
    omega
  · exact Nat.le_refl _
  · rw [hsource]
    exact hposition.le_size
  · rw [hsource]
    simp only [List.forall_mem_cons]
    exact ⟨(source.isTrue_advance 0).isBoundary, hstart.isBoundary, hposition.isBoundary,
      hposition.isBoundary, List.forall_mem_nil _⟩

/-! ## Answers step by step -/

/-- The text of the latest lexeme can be cut out of the source. -/
theorem Latest.text?_machine (h : s.Latest source before taken) :
    s.machine.text? = some s.text := by
  have hslice := source.slice?_advance before taken
  rw [← h.start_eq, ← h.cursor_eq, ← h.text_eq, ← h.source_eq] at hslice
  exact hslice

/-- A scan in steps tells what the scan of a scanner tells, and comes as far. -/
theorem Latest.scan?_machine (h : s.Latest source before taken)
    (hrounds : s.cursor.rest.length < rounds) :
    s.machine.scan? rounds = some (s.scan.1.kind, s.scan.1.reports, s.scan.2.machine) := by
  have hstands : (Reading.ofCursor s.cursor).Stands := by
    refine ⟨before + taken, ?_⟩
    show s.cursor = s.cursor.source.cursor.advance (before + taken)
    rw [h.source_eq]
    exact h.cursor_eq
  have hsource : s.cursor.source = s.scan.2.cursor.source := by
    obtain ⟨skipped, more, hafter⟩ := h.scan
    rw [h.source_eq, hafter.source_eq]
  have hscan : Stepper.scan? s.machine.config rounds
      (Head.mk s.machine.source s.machine.position #[]) = _ :=
    Reading.scan?_head s.config hstands hrounds
  rw [Machine.scan?, hscan]
  simp only [Option.bind_eq_bind, Option.bind_some, Option.pure_def, Option.some.injEq,
    Prod.mk.injEq]
  refine ⟨rfl, rfl, ?_⟩
  rw [machine, machine, hsource]
  rfl

/-- What a machine is asked, it answers as a scanner does. -/
theorem Latest.answer?_machine (request : Request) (h : s.Latest source before taken)
    (hrounds : s.cursor.rest.length < rounds) :
    s.machine.answer? rounds request =
      some ((s.answer request).1, (s.answer request).2.machine) := by
  cases request with
  | scan =>
    rw [Machine.answer?, h.scan?_machine hrounds]
    rfl
  | text =>
    rw [Machine.answer?, h.text?_machine]
    rfl
  | start => rfl
  | position => rfl

/-- After a request there is still a latest lexeme, and no more to read than there was. -/
theorem Latest.answer (request : Request) (h : s.Latest source before taken) :
    (∃ before taken, (s.answer request).2.Latest source before taken) ∧
      (s.answer request).2.cursor.rest.length ≤ s.cursor.rest.length := by
  cases request with
  | scan =>
    obtain ⟨skipped, more, hafter⟩ := h.scan
    refine ⟨⟨_, _, hafter⟩, ?_⟩
    obtain ⟨skipped, more, hstep⟩ := s.exists_step
    show s.scan.2.cursor.rest.length ≤ _
    rw [hstep.cursor_eq, Cursor.advance_rest, List.length_drop]
    omega
  | text => exact ⟨⟨_, _, h⟩, Nat.le_refl _⟩
  | start => exact ⟨⟨_, _, h⟩, Nat.le_refl _⟩
  | position => exact ⟨⟨_, _, h⟩, Nat.le_refl _⟩

/-- Whatever a machine is asked, and in whatever order, it answers as a scanner does, and it stays
in bounds. -/
theorem Latest.run?_machine (requests : List Request) (h : s.Latest source before taken)
    (hrounds : s.cursor.rest.length < rounds) :
    Machine.run? rounds requests s.machine =
        some ((run requests s).1, (run requests s).2.machine) ∧
      (run requests s).2.machine.InBounds := by
  induction requests generalizing s before taken with
  | nil => exact ⟨rfl, h.inBounds⟩
  | cons request requests ih =>
    obtain ⟨⟨before', taken', hafter⟩, hle⟩ := h.answer request
    obtain ⟨hanswers, hbounds⟩ := ih hafter (Nat.lt_of_le_of_lt hle hrounds)
    refine ⟨?_, hbounds⟩
    rw [Machine.run?, h.answer?_machine request hrounds]
    simp only [Option.bind_eq_bind, Option.bind_some, hanswers]
    rfl

/-- Only scans change a scanner. -/
theorem run_snd (requests : List Request) (source : Source) (config : Config) (n : Nat) :
    (run requests (source.scannerAfter config n)).2 =
      source.scannerAfter config (n + requests.count .scan) := by
  induction requests generalizing n with
  | nil => rfl
  | cons request requests ih =>
    cases request with
    | scan =>
      rw [List.count_cons_self, Nat.add_comm _ 1, ← Nat.add_assoc]
      exact ih (n + 1)
    | text => exact ih n
    | start => exact ih n
    | position => exact ih n

/-! ## The end of the input -/

/-- The scanner has told the end of the input. -/
structure HasEnded (s : Scanner) : Prop where
  rest_eq : s.cursor.rest = []
  start_eq : s.start = s.position
  text_eq : s.text = []

theorem hasEnded_scan (h : s.scan.1.kind = .endOfInput) : s.scan.2.HasEnded := by
  obtain ⟨skipped, taken, hstep⟩ := s.exists_step
  obtain ⟨hrest, htext, hstart⟩ := hstep.atEnd h
  exact ⟨hrest, hstep.after_start.trans hstart, htext⟩

/-- A scanner that has told the end of the input does so again, reports nothing and stays. -/
theorem HasEnded.scan_eq (h : s.HasEnded) :
    s.scan = (⟨.endOfInput, [], s.position, s.position, []⟩, s) := by
  rw [scan_of_rest_eq_nil h.rest_eq, ← h.text_eq]
  obtain ⟨config, cursor, start, text, errorCount⟩ := s
  have hstart : start = (Scanner.mk config cursor start text errorCount).position := h.start_eq
  rw [← hstart]

end Scanner

namespace Source

variable {config : Config} {source : Source}

/-- As long as the end of the input is not told, every scan takes up a character at the least. -/
theorem length_rest_scannerAfter_add_le (source : Source) (config : Config) (n : Nat)
    (h : ∀ m < n, (source.nthScan config m).kind ≠ .endOfInput) :
    (source.scannerAfter config n).cursor.rest.length + n ≤ source.cursor.rest.length := by
  induction n with
  | zero => exact Nat.le_refl _
  | succ n ih =>
    have hlt := Scanner.length_scan_rest_lt _ (h n (Nat.lt_succ_self n))
    have hle := ih fun m hm => h m (Nat.lt_succ_of_lt hm)
    show (source.scannerAfter config n).scan.2.cursor.rest.length + (n + 1) ≤ _
    omega

/-- The end of the input is told for a first time, and not too late. -/
theorem exists_first_endOfInput (source : Source) (config : Config) :
    ∃ first ≤ source.cursor.rest.length,
      (source.nthScan config first).kind = .endOfInput ∧
      ∀ n < first, (source.nthScan config n).kind ≠ .endOfInput := by
  have hexists : ∃ n, (source.nthScan config n).kind = .endOfInput := by
    by_contra hnone
    rw [not_exists] at hnone
    have hle := source.length_rest_scannerAfter_add_le config (source.cursor.rest.length + 1)
      fun m _ => hnone m
    omega
  have hbefore : ∀ n < Nat.find hexists, (source.nthScan config n).kind ≠ .endOfInput :=
    fun n hn => Nat.find_min hexists hn
  have hle := source.length_rest_scannerAfter_add_le config (Nat.find hexists) hbefore
  exact ⟨Nat.find hexists, by omega, Nat.find_spec hexists, hbefore⟩

/-- From the end of the input on, a scanner has ended. -/
theorem hasEnded_scannerAfter {first n : Nat}
    (hfirst : (source.nthScan config first).kind = .endOfInput) (hn : first < n) :
    (source.scannerAfter config n).HasEnded := by
  induction n, hn using Nat.le_induction with
  | base => exact Scanner.hasEnded_scan hfirst
  | succ n _ ih =>
    have hscan : source.scannerAfter config (n + 1) = (source.scannerAfter config n).scan.2 := rfl
    rw [hscan, ih.scan_eq]
    exact ih

/-- Scanning never breaks off and comes to an end. Whatever a scanner is asked, and in whatever
order, each step towards an answer is possible, each loop is left after as many rounds as there are
characters behind the byte order mark, and one more, at the latest, and the offsets stay in order
and between characters. The end of the input is told no later than by the scan that comes after as
many others as there are such characters. From then on, every scan tells it again, reports nothing
and leaves the scanner as it is. -/
theorem scanning_ends (source : Source) (config : Config) :
    (∀ (requests : List Scanner.Request) (rounds : Nat), source.cursor.rest.length < rounds →
      let ran := Scanner.run requests (.ofSource config source)
      Machine.run? rounds requests (.ofSource config source) = some (ran.1, ran.2.machine) ∧
        ran.2.machine.InBounds ∧
        ran.2 = source.scannerAfter config (requests.count .scan)) ∧
    ∃ first ≤ source.cursor.rest.length, ∀ n,
      ((source.nthScan config n).kind = .endOfInput ↔ first ≤ n) ∧
      (first < n →
        (source.nthScan config n).reports = [] ∧
        (source.scannerAfter config n).text = [] ∧
        source.scannerAfter config (n + 1) = source.scannerAfter config n) := by
  refine ⟨?_, ?_⟩
  · intro requests rounds hrounds
    obtain ⟨hanswers, hbounds⟩ :=
      (Scanner.latest_ofSource config source).run?_machine requests hrounds
    have hlast := Scanner.run_snd requests source config 0
    rw [Nat.zero_add] at hlast
    exact ⟨hanswers, hbounds, hlast⟩
  · obtain ⟨first, hle, hfirst, hbefore⟩ := source.exists_first_endOfInput config
    refine ⟨first, hle, fun n => ⟨?_, ?_⟩⟩
    · constructor
      · intro hkind
        by_contra hlt
        exact hbefore n (Nat.lt_of_not_le hlt) hkind
      · intro hn
        rcases Nat.eq_or_lt_of_le hn with rfl | hlt
        · exact hfirst
        · rw [nthScan, (hasEnded_scannerAfter hfirst hlt).scan_eq]
    · intro hlt
      have hended := hasEnded_scannerAfter hfirst hlt
      have hscan : source.scannerAfter config (n + 1) = (source.scannerAfter config n).scan.2 := rfl
      rw [hscan, nthScan, hended.scan_eq]
      exact ⟨rfl, hended.text_eq, rfl⟩

/-- A comment that is never closed, behind a byte order mark: four rounds are enough for what is
asked here. -/
theorem scanning_ends_in_open_comment :
    let source := Source.ofBytes [0xEF, 0xBB, 0xBF, 0x61, 0x2F, 0x2A]
    let requests : List Scanner.Request := [.text, .scan, .text, .scan, .position, .text, .scan]
    source.cursor.rest.length < 4 ∧
      ∃ last : Machine,
        Machine.run? 4 requests (.ofSource .full source) =
            some ([.text [], .scanned .identifier [], .text ['a'],
              .scanned .endOfInput [⟨⟨6, 1, 4⟩, .commentNotTerminated⟩], .position ⟨6, 1, 4⟩,
              .text [], .scanned .endOfInput []], last) ∧
          last.InBounds := by
  intro source requests
  have hrounds : source.cursor.rest.length < 4 := by decide +kernel
  obtain ⟨hanswers, hbounds, -⟩ := (scanning_ends source .full).1 requests 4 hrounds
  have htold : (Scanner.run requests (.ofSource .full source)).1 =
      [.text [], .scanned .identifier [], .text ['a'],
        .scanned .endOfInput [⟨⟨6, 1, 4⟩, .commentNotTerminated⟩], .position ⟨6, 1, 4⟩,
        .text [], .scanned .endOfInput []] := by
    decide +kernel
  rw [htold] at hanswers
  exact ⟨hrounds, _, hanswers, hbounds⟩

end Source

end Lexis
