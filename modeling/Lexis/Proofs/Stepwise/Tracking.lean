import Lexis.Proofs.Scanner.Comments
import Lexis.Proofs.Scanner.Order
import Lexis.Proofs.Stepwise.Pending
import Lexis.Proofs.Stepwise.Scan
import Lexis.Proofs.Stepwise.Simulation

/-!
# Scanning with an account of the issues

A tracker makes the moves that a scan asks for, looking at the issues of its source only from the
first on that it has not come by. Wherever it has got to, it shows the head that looks through all
of them, and goes on so at every move (`Tracker.simulates`). So a scan by a tracker is the scan of
the reading that it tracks, and it tracks the reading behind the lexeme (`Tracker.Tracks.scan?`).
Scans that follow one another, with the reports cleared away between them or not, tell what the
scanner of the source tells, and leave those issues pending that are still ahead
(`Tracker.run?_ofSource`).
-/

namespace Lexis

namespace Reading

variable {r s : Reading}

/-- A reading that has gone through the next lexeme has still come straight from the start. -/
theorem Stands.after_next (h : r.Stands) (config : Config) : (r.next config).after.Stands := by
  obtain ⟨skipped, taken, hnext⟩ := r.isNext_next config
  exact h.of_cursor_eq (hnext.before.trans hnext.after).cursor_eq

/-- A head is the head of one reading only. -/
theorem Stands.eq_of_head_eq (hr : r.Stands) (hs : s.Stands) (h : r.head = s.head) : r = s := by
  obtain ⟨m, hm⟩ := hr
  obtain ⟨n, hn⟩ := hs
  have hsource : r.cursor.source = s.cursor.source := congrArg Head.source h
  have hposition : r.cursor.position = s.cursor.position := congrArg Head.position h
  have hreports : r.reports = s.reports := congrArg Head.reports h
  rw [← hsource] at hn
  rw [hm, hn] at hposition
  have hcursor : r.cursor = s.cursor := by
    rw [hm, hn]
    exact Cursor.advance_eq_of_offset_eq (congrArg Position.offset hposition)
  obtain ⟨cursor, reports⟩ := r
  cases hcursor
  cases hreports
  rfl

end Reading

namespace Tracker

instance : Stepper Tracker where
  head := Tracker.head
  reportAt := Tracker.reportAt
  bump? := Tracker.bump?
  skipTo? := Tracker.skipTo?

variable {base rounds n : Nat} {config : Config} {source : Source} {r : Reading} {t : Tracker}
  {recorder : Recorder}

/-! ## A tracker goes with a head -/

/-- A tracker tracks a reading that has this head. -/
def Shows (base : Nat) (t : Tracker) (h : Head) : Prop :=
  ∃ r : Reading, Tracks base r t ∧ r.head = h

/-- Neither a tracker nor the head that it shows can stop inside a character, and from there both go
to any place ahead. -/
theorem Shows.skipTo? {h : Head} (hshows : Shows base t h) {stop : Nat}
    (hstop : stop ≤ h.source.size) : Option.Rel (Shows base) (t.skipTo? stop) (h.skipTo? stop) := by
  obtain ⟨r, htracks, rfl⟩ := hshows
  have hlast : min stop r.head.source.size = stop := Nat.min_eq_left hstop
  cases hslice : r.head.source.slice? r.head.position.offset stop with
  | none =>
    have htracker : t.skipTo? stop = none := by
      simp [Tracker.skipTo?, htracks.head_eq, hlast, hslice]
    have hhead : r.head.skipTo? stop = none := by
      simp [Head.skipTo?, hlast, hslice]
    rw [htracker, hhead]
    exact .none
  | some text =>
    obtain ⟨hahead, hboundary⟩ := Source.isBoundary_of_slice? hslice
    rw [← htracks.head_eq] at hahead
    obtain ⟨n, -, rfl⟩ := htracks.exists_offset_eq hboundary hahead
    obtain ⟨after, hafter, hskip⟩ := htracks.skipTo? n
    rw [hafter, Reading.skipTo?_head htracks.stands]
    exact .some ⟨r.skip n, hskip, rfl⟩

/-- Whatever move is made, a tracker goes on to show the head that makes it too. -/
theorem simulates (base : Nat) : Stepper.Simulates (Shows base) where
  head_eq := by
    rintro t h ⟨r, htracks, rfl⟩
    exact htracks.head_eq
  reportAt := by
    rintro t h ⟨r, htracks, rfl⟩ p f
    exact ⟨r.reportAt p f, htracks.reportAt p f, rfl⟩
  bump? := by
    rintro t h ⟨r, htracks, rfl⟩
    obtain ⟨after, hafter, hbump⟩ := htracks.bump
    show Option.Rel (Shows base) t.bump? r.head.bump?
    rw [hafter, Reading.bump?_head htracks.stands]
    exact .some ⟨r.bump, hbump, rfl⟩
  skipTo? := by
    intro t h hshows stop hstop
    exact hshows.skipTo? hstop

/-- A scan by a tracker finds the next lexeme, wherever it starts, and tracks the reading through
it. -/
theorem Tracks.scan? (config : Config) (h : Tracks base r t) (hrounds : r.rest.length < rounds) :
    ∃ after, Stepper.scan? config rounds t =
        some ((r.next config).kind, (r.next config).before.position, after) ∧
      Tracks base (r.next config).after after := by
  have hscan := (simulates base).scan? config rounds ⟨r, h, rfl⟩
  rw [Reading.scan?_head config h.stands hrounds] at hscan
  generalize hoption : Stepper.scan? config rounds t = outcome at hscan
  cases hscan with
  | some halike =>
    next told =>
    obtain ⟨kind, start, after⟩ := told
    obtain ⟨hkind, hstart, s, htracks, hhead⟩ := halike
    have hs := htracks.stands.eq_of_head_eq (h.stands.after_next config) hhead
    cases hkind
    cases hstart
    exact ⟨after, rfl, hs ▸ htracks⟩

/-! ## Many scans -/

/-- What the scans tell that are made one after the other, and the tracker after them, with the
reports cleared away between some of them. -/
def run? (config : Config) (rounds : Nat) :
    List Recorder.Action → Tracker → Option (List (Kind × Position) × Tracker)
  | [], t => some ([], t)
  | .scan :: actions, t => do
    let (kind, start, after) ← Stepper.scan? config rounds t
    let (told, last) ← run? config rounds actions after
    return ((kind, start) :: told, last)
  | .clear :: actions, t => run? config rounds actions t.clear

/-- A tracker stands where a recorder does, holds on to the same reports and has counted as many. -/
structure Accompanies (t : Tracker) (recorder : Recorder) : Prop where
  tracks : ∃ base, Tracks base ⟨recorder.scanner.cursor, recorder.held⟩ t
  errorCount_eq : t.errorCount = recorder.scanner.errorCount

theorem accompanies_ofSource (config : Config) (source : Source) :
    (ofSource source).Accompanies (.ofSource config source) where
  tracks := ⟨0, tracks_ofSource source⟩
  errorCount_eq := rfl

theorem Accompanies.clear (h : t.Accompanies recorder) : t.clear.Accompanies recorder.clear where
  tracks := by
    obtain ⟨base, htracks⟩ := h.tracks
    exact ⟨_, htracks.clear⟩
  errorCount_eq := h.errorCount_eq

/-- A scan by a tracker tells what the scan by its recorder tells. -/
theorem Accompanies.scan? (h : t.Accompanies recorder)
    (hrounds : recorder.scanner.cursor.rest.length < rounds) :
    ∃ after, Stepper.scan? recorder.scanner.config rounds t =
        some (recorder.scan.1.kind, recorder.scan.1.start, after) ∧
      after.Accompanies recorder.scan.2 := by
  obtain ⟨base, htracks⟩ := h.tracks
  obtain ⟨after, hscan, hafter⟩ := htracks.scan? recorder.scanner.config hrounds
  have hbehind := (Reading.behind_ofCursor ⟨recorder.scanner.cursor, recorder.held⟩).symm
  rw [hbehind, Reading.next_behind] at hscan hafter
  have hheld : recorder.held ++ recorder.scanner.scan.1.reports =
      recorder.held ++ ((Reading.ofCursor recorder.scanner.cursor).next
        recorder.scanner.config).after.reports :=
    Array.toList_inj.1 (Array.toList_appendList.trans Array.toList_append.symm)
  refine ⟨after, hscan, ⟨base, ?_⟩, ?_⟩
  · show Tracks base ⟨recorder.scanner.scan.2.cursor,
      recorder.held ++ recorder.scanner.scan.1.reports⟩ after
    rw [hheld]
    exact hafter
  · have hbefore : t.errorCount = base + recorder.held.size := htracks.errorCount_eq
    have hcount := hafter.errorCount_eq
    show after.errorCount = recorder.scanner.errorCount + _
    rw [hcount, ← h.errorCount_eq, hbefore]
    simp [Reading.behind, Nat.add_assoc]

/-- What a tracker tells of the scans that are still to come is what the scanner of the source
tells, and it goes on to stand where the recorder does. -/
theorem Accompanies.run? (h : t.Accompanies recorder) (hfollows : recorder.Follows config source n)
    (hrounds : source.cursor.rest.length < rounds) (actions : List Recorder.Action) :
    ∃ last, t.run? config rounds actions =
        some ((List.range' n (actions.count .scan)).map fun n =>
          ((source.nthScan config n).kind, (source.nthScan config n).start), last) ∧
      last.Accompanies (recorder.after actions) := by
  induction actions generalizing t recorder n with
  | nil => exact ⟨t, rfl, h⟩
  | cons action actions ih =>
    cases action with
    | clear => exact ih h.clear hfollows.clear
    | scan =>
      obtain ⟨passed, hconfig, hcursor⟩ := source.exists_scannerAfter config n
      rw [← hfollows.scanner_eq] at hconfig hcursor
      have hleft : recorder.scanner.cursor.rest.length < rounds := by
        rw [hcursor, Cursor.advance_rest, List.length_drop]
        omega
      obtain ⟨after, hscan, hafter⟩ := h.scan? hleft
      obtain ⟨last, hrun, hlast⟩ := ih hafter hfollows.scan
      have htold : recorder.scan.1 = source.nthScan config n := by
        rw [Source.nthScan, ← hfollows.scanner_eq]
        rfl
      rw [hconfig, htold] at hscan
      refine ⟨last, ?_, hlast⟩
      rw [Tracker.run?, hscan, List.count_cons_self, List.range'_succ, List.map_cons]
      simp only [Option.bind_eq_bind, Option.bind_some, hrun]
      rfl

/-- Scans of a source by a tracker never fail and tell what the scanner of the source tells. The
tracker ends where the scanner does. It holds on to the reports made since they were last cleared
away, it has counted all of them, and of the issues about ill-formed bytes those ahead of it are
pending. -/
theorem run?_ofSource (source : Source) (config : Config) (actions : List Recorder.Action)
    (hrounds : source.cursor.rest.length < rounds) :
    let scans := actions.count .scan
    let scanner := source.scannerAfter config scans
    ∃ last, (ofSource source).run? config rounds actions =
        some ((List.range scans).map fun n =>
          ((source.nthScan config n).kind, (source.nthScan config n).start), last) ∧
      last.head = ⟨source, scanner.position,
        ((Recorder.ofSource config source).after actions).held⟩ ∧
      last.errorCount = scanner.errorCount ∧
      last.pending.filter (·.kind == .invalidUtf8) =
        Source.invalidFrom scanner.position.offset scanner.cursor.rest := by
  intro scans scanner
  have hstart := Recorder.follows_ofSource config source
  obtain ⟨last, hrun, hlast⟩ := (accompanies_ofSource config source).run? hstart hrounds actions
  have hscanner : ((Recorder.ofSource config source).after actions).scanner = scanner :=
    (Recorder.follows_after config source actions).scanner_eq
  obtain ⟨base, htracks⟩ := hlast.tracks
  obtain ⟨passed, -, hcursor⟩ := source.exists_scannerAfter config scans
  rw [hscanner] at htracks
  refine ⟨last, ?_, ?_, ?_, htracks.filter_pending⟩
  · rw [hrun, List.range_eq_range']
  · rw [htracks.head_eq, Reading.head]
    have hsource : scanner.cursor.source = source := by
      rw [hcursor]
      rfl
    rw [hsource]
    rfl
  · rw [hlast.errorCount_eq, hscanner]

/-- The first report has been cleared away and still counts. -/
example :
    let s : Source := ⟨[.replaced [0xFF], .valid ' ', .replaced [0xFF]]⟩
    (ofSource s).run? .full 4 [.scan, .clear, .scan] =
      some ([(.rune SourceChar.replacement, ⟨0, 1, 1⟩), (.rune SourceChar.replacement, ⟨4, 1, 3⟩)],
        ⟨⟨s, ⟨7, 1, 4⟩, #[⟨⟨4, 1, 3⟩, .invalidUtf8⟩]⟩, 2, 2⟩) := by
  decide +kernel

end Tracker

end Lexis
