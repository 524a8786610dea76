import Lexis.Proofs.Lexeme.ReadingOrder

/-!
# Reports stay within what is scanned

Each scan reports on the stretch of source that it moves over, in order (`Scanner.ordered_scan`).
The stretches of a run follow one another, so the reports of a run are in order too, and none
repeats another (`Source.ordered_reportsBefore`). The scanner counts them all, also those that have
been cleared away since (`Recorder.Follows`).
-/

namespace Lexis

/-! ## One scan -/

theorem Fault.isOneOf_gapFaultKinds {f : Fault} (h : f.IsOneOf Reading.gapFaultKinds) :
    f ∈ [.nulCharacter, .invalidUtf8, .commentNotTerminated] := by
  cases f with
  | nulCharacter | invalidUtf8 | commentNotTerminated => decide
  | _ => simp [IsOneOf, Reading.gapFaultKinds, ofCharacter, SameKind, Fault.ctorIdx] at h

namespace Scanner

/-- A scan makes its reports in order, on the stretch of source that it moves over. -/
theorem ordered_scan (s : Scanner) :
    s.position.offset ≤ s.scan.2.position.offset ∧
      Ordered s.position.offset s.scan.2.position.offset s.scan.1.reports ∧
      ∀ report ∈ s.scan.1.reports,
        report.fault ∉ [.nulCharacter, .invalidUtf8, .commentNotTerminated] →
        s.scan.1.start.offset ≤ report.position.offset ∧
          report.position.offset ≤ s.scan.1.stop.offset := by
  obtain ⟨hbefore, kinds, hafter⟩ := Reading.leads_next s.config (.ofCursor s.cursor)
  obtain ⟨gap, hgap, hordered, hkinds⟩ := hbefore.reports_eq
  obtain ⟨made, hmade, hordered', -⟩ := hafter.reports_eq
  -- reading starts without reports, so those at its end are the ones of this scan
  have hreports : s.scan.1.reports = gap ++ made := by
    rw [scan, hmade, hgap]
    rfl
  refine ⟨Nat.le_trans hbefore.le hafter.le, ?_, ?_⟩
  · rw [hreports]
    exact hordered.append hordered' hbefore.le hafter.le
  · intro report hreport hfault
    rw [hreports, List.mem_append] at hreport
    rcases hreport with hr | hr
    · exact absurd (Fault.isOneOf_gapFaultKinds (hkinds report hr)) hfault
    · exact (hordered'.within report hr).bounds

end Scanner

/-! ## Runs -/

namespace Source

/-- The reports of the first `n` scans of a source. -/
def reportsBefore (source : Source) (config : Config) (n : Nat) : List Report :=
  (List.range n).flatMap fun k => (source.nthScan config k).reports

theorem reportsBefore_succ (source : Source) (config : Config) (n : Nat) :
    source.reportsBefore config (n + 1) =
      source.reportsBefore config n ++ (source.nthScan config n).reports := by
  simp [reportsBefore, List.range_succ]

variable {source : Source} {config : Config}

/-- A scanner does not go back. -/
theorem offset_scannerAfter_le {m n : Nat} (h : m ≤ n) :
    (source.scannerAfter config m).position.offset ≤
      (source.scannerAfter config n).position.offset := by
  induction n, h using Nat.le_induction with
  | base => exact Nat.le_refl _
  | succ n _ ih => exact Nat.le_trans ih (source.scannerAfter config n).ordered_scan.1

/-- The reports of any number of scans are in order. -/
theorem ordered_reportsBefore (n : Nat) :
    Ordered source.markSize (source.scannerAfter config n).position.offset
      (source.reportsBefore config n) := by
  induction n with
  | zero => exact .nil _ _
  | succ n ih =>
    obtain ⟨hle, hordered, -⟩ := (source.scannerAfter config n).ordered_scan
    rw [reportsBefore_succ]
    exact ih.append hordered (offset_scannerAfter_le (Nat.zero_le n)) hle

theorem errorCount_scannerAfter (n : Nat) :
    (source.scannerAfter config n).errorCount = (source.reportsBefore config n).length := by
  induction n with
  | zero => rfl
  | succ n ih =>
    rw [reportsBefore_succ, List.length_append, ← ih]
    rfl

end Source

namespace Recorder

/-- What can be done with a recorder. -/
inductive Action where
  | scan
  | clear
deriving DecidableEq, Repr

/-- The recorder after an action. -/
def act (r : Recorder) : Action → Recorder
  | .scan => r.scan.2
  | .clear => r.clear

/-- The recorder after some actions. -/
def after (r : Recorder) (actions : List Action) : Recorder :=
  actions.foldl act r

/-- The recorder has made `n` scans of a source, and may have been cleared between them. -/
structure Follows (r : Recorder) (config : Config) (source : Source) (n : Nat) : Prop where
  scanner_eq : r.scanner = source.scannerAfter config n
  /-- What is held is the end of what was reported. -/
  held_isSuffix : r.held.toList <:+ source.reportsBefore config n

variable {config : Config} {source : Source} {r : Recorder} {n : Nat}

theorem Follows.scan (h : r.Follows config source n) :
    (r.act .scan).Follows config source (n + 1) where
  scanner_eq := by
    show r.scanner.scan.2 = (source.scannerAfter config n).scan.2
    rw [h.scanner_eq]
  held_isSuffix := by
    obtain ⟨cleared, hcleared⟩ := h.held_isSuffix
    have hheld : (r.act .scan).held.toList = r.held.toList ++ r.scanner.scan.1.reports :=
      Array.toList_appendList
    rw [hheld, h.scanner_eq, Source.reportsBefore_succ, ← hcleared, List.append_assoc]
    exact List.suffix_append _ _

theorem Follows.clear (h : r.Follows config source n) :
    (r.act .clear).Follows config source n where
  scanner_eq := h.scanner_eq
  held_isSuffix := List.nil_suffix

theorem Follows.after (h : r.Follows config source n) (actions : List Action) :
    (r.after actions).Follows config source (n + actions.count .scan) := by
  induction actions generalizing r n with
  | nil => exact h
  | cons action actions ih =>
    cases action with
    | scan =>
      rw [List.count_cons_self, Nat.add_comm _ 1, ← Nat.add_assoc]
      exact ih h.scan
    | clear =>
      rw [List.count_cons_of_ne (by decide)]
      exact ih h.clear

theorem follows_ofSource (config : Config) (source : Source) :
    (ofSource config source).Follows config source 0 where
  scanner_eq := rfl
  held_isSuffix := List.nil_suffix

/-- What is done with a recorder from the start on makes as many scans of its source. -/
theorem follows_after (config : Config) (source : Source) (actions : List Action) :
    ((ofSource config source).after actions).Follows config source (actions.count .scan) := by
  have hfollows := (follows_ofSource config source).after actions
  rwa [Nat.zero_add] at hfollows

end Recorder

namespace Source

/-- Every report is made at a place that the scan moves over, and unless it is about a character or
a comment that is left out, at the lexeme. So the reports of a scan do not lie behind those of a
later one. Of all reports, no two are of one kind and at one place. The scanner counts them all,
whenever those that are held have been cleared away. -/
theorem reports_in_order (source : Source) (config : Config) :
    (∀ n, let scan := source.nthScan config n
      ∀ report ∈ scan.reports,
        ((source.scannerAfter config n).position.offset ≤ report.position.offset ∧
          report.position.offset ≤ (source.scannerAfter config (n + 1)).position.offset) ∧
        (report.fault ∉ [.nulCharacter, .invalidUtf8, .commentNotTerminated] →
          scan.start.offset ≤ report.position.offset ∧
            report.position.offset ≤ scan.stop.offset)) ∧
    (∀ m n, m < n → ∀ earlier ∈ (source.nthScan config m).reports,
      ∀ later ∈ (source.nthScan config n).reports,
        earlier.position.offset ≤ later.position.offset) ∧
    (∀ n, (source.reportsBefore config n).Pairwise fun a b =>
      ¬ (a.position = b.position ∧ a.fault.SameKind b.fault)) ∧
    ∀ actions, let r := (Recorder.ofSource config source).after actions
      let scans := actions.count .scan
      r.scanner = source.scannerAfter config scans ∧
        r.scanner.errorCount = (source.reportsBefore config scans).length ∧
        r.held.toList <:+ source.reportsBefore config scans := by
  have hwithin (n : Nat) := (source.scannerAfter config n).ordered_scan.2.1.within
  refine ⟨?_, ?_, ?_, ?_⟩
  · intro n scan report hreport
    exact ⟨(hwithin n report hreport).bounds,
      (source.scannerAfter config n).ordered_scan.2.2 report hreport⟩
  · intro m n hlt earlier hearlier later hlater
    calc earlier.position.offset
        ≤ (source.scannerAfter config (m + 1)).position.offset :=
          (hwithin m earlier hearlier).bounds.2
      _ ≤ (source.scannerAfter config n).position.offset := offset_scannerAfter_le hlt
      _ ≤ later.position.offset := (hwithin n later hlater).bounds.1
  · intro n
    exact (ordered_reportsBefore n).distinct
  · intro actions r scans
    have hfollows := Recorder.follows_after config source actions
    refine ⟨hfollows.scanner_eq, ?_, hfollows.held_isSuffix⟩
    rw [hfollows.scanner_eq]
    exact errorCount_scannerAfter _

/-- The reports of one scan need not be made in the order of their places. -/
example : ((ofString "'\\q").nthScan .full 0).reports.map (fun r => (r.position.offset, r.fault)) =
    [(2, .invalidEscape), (3, .literalNotTerminated), (0, .illegalCharLiteral)] := by
  decide +kernel

end Source

end Lexis
