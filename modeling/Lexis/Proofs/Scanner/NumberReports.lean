import Mathlib.Order.Nat
import Lexis.Proofs.Lexeme.LayoutFaults
import Lexis.Proofs.Lexeme.NumberOrder
import Lexis.Proofs.Scanner.Number

/-!
# What is reported of a number

Whatever the mode, the reports about a number can be told from its text and its kind alone. The text
is laid out in one way (`NumberLayout`), and each of the faults that the layout shows is reported
once, at the place where it shows, and nothing else but faulty characters before the number
(`Scan.IsNumber`). That every number is scanned so is `Source.number_reports`.
-/

namespace Lexis

/-- The scan tells of a number whose text is laid out as `layout` says. -/
structure Scan.IsNumber (scan : Scan) (layout : NumberLayout) : Prop where
  text_eq : layout.text = scan.text
  layout_unique : ∀ other : NumberLayout, other.text = scan.text → other = layout
  /-- What the number shows is reported where it shows. -/
  report_iff : ∀ position fault, fault.isOfCharacter = false →
    (⟨position, fault⟩ ∈ scan.reports ↔
      ∃ i, layout.Shows scan.kind i fault ∧ position = scan.start.locate (scan.text.take i))
  /-- No kind of fault is reported twice. -/
  distinct : (scan.reports.filter fun report => !report.fault.isOfCharacter).Pairwise
    fun a b => ¬ a.fault.SameKind b.fault
  /-- An underscore is reported where some underscore does not stand between digits, the mark of a
  radix counting as one. -/
  separator_iff : (∃ report ∈ scan.reports, report.fault = .invalidSeparator) ↔
    ∃ k, layout.body[k]? = some '_' ∧
      ¬ Number.IsBetweenDigits layout.radix.isDigit layout.before layout.body k

namespace Number

/-- A number has an underscore as a fault where some underscore does not stand between digits. -/
theorem exists_shows_invalidSeparator_iff {layout : NumberLayout} {kind : Kind} :
    (∃ i, layout.Shows kind i .invalidSeparator) ↔
      ∃ k, layout.body[k]? = some '_' ∧
        ¬ IsBetweenDigits layout.radix.isDigit layout.before layout.body k := by
  rw [← exists_isMisplaced_iff layout.radix.isDigit_underscore]
  constructor
  · rintro ⟨i, hshows⟩
    cases hshows with
    | invalidSeparator hfirst => exact ⟨_, hfirst.1⟩
  · intro hsome
    classical
    exact ⟨_, .invalidSeparator (Nat.isLeast_find hsome)⟩

end Number

namespace Scan.IsAt

variable {scan : Scan} {mode : Mode} {cursor : Cursor} {c : SourceChar} {rest : List SourceChar}
  {floats : Bool}

/-- All reports but those of faulty characters are made about the lexeme. -/
theorem mem_reports_iff (h : scan.IsAt mode cursor c rest) {report : Report}
    (hfault : report.fault.isOfCharacter = false) :
    report ∈ scan.reports ↔ report ∈ scan.ownReports := by
  obtain ⟨gap, hreports, hgap⟩ := h.reports_eq
  rw [hreports, List.mem_append, or_iff_right]
  intro hmem
  rw [(hgap report hmem).2] at hfault
  cases hfault

/-- Where a number is read, what is reported of it is what its layout shows. -/
theorem isNumber (h : scan.IsAt mode cursor c rest)
    (hread : Lexeme.read mode c rest = .number (.read floats (c :: rest))) :
    ∃ layout, scan.IsNumber layout := by
  obtain ⟨htext, hkind, hown⟩ := h.number hread
  have hcomposed := Number.composed_read floats (c :: rest)
  have hplain := (Number.begins_read floats (c :: rest)).isPlain
  generalize Number.read floats (c :: rest) = m at htext hkind hown hcomposed hplain
  -- the characters of a number take up a byte and a column each
  have hplace {i : Nat} {f : Fault} (hmem : (i, f) ∈ m.faults) :
      scan.start.locate (scan.text.take i) = scan.start.across i := by
    have hle : i ≤ m.text.length := (Number.fits_of_mem_faults hmem).1
    rw [htext, Position.locate_eq_across fun d hd => hplain d (List.mem_of_mem_take hd),
      List.length_take, Nat.min_eq_left hle]
  have hreport {position : Position} {fault : Fault} (hfault : fault.isOfCharacter = false) :
      ⟨position, fault⟩ ∈ scan.reports ↔ ∃ i, (m.layout hcomposed).Shows scan.kind i fault ∧
        position = scan.start.locate (scan.text.take i) := by
    rw [h.mem_reports_iff hfault, hown, List.mem_map, hkind]
    constructor
    · rintro ⟨⟨i, f⟩, hmem, heq⟩
      cases heq
      exact ⟨i, (Number.mem_faults_iff hcomposed).1 hmem, (hplace hmem).symm⟩
    · rintro ⟨i, hshows, rfl⟩
      have hmem := (Number.mem_faults_iff hcomposed).2 hshows
      exact ⟨(i, fault), hmem, by rw [hplace hmem]⟩
  refine ⟨m.layout hcomposed, ?_, ?_, fun _ _ => hreport, ?_, ?_⟩
  · rw [Number.text_layout, htext]
  · intro other hother
    refine NumberLayout.eq_of_text_eq ?_
    rw [hother, Number.text_layout, htext]
  · obtain ⟨gap, hreports, hgap⟩ := h.reports_eq
    have hnone : gap.filter (fun report => !report.fault.isOfCharacter) = [] := by
      rw [List.filter_eq_nil_iff]
      intro report hmem
      simp [(hgap report hmem).2]
    -- a number is looked at in steps, and each kind of fault is found in one of them, once
    have hdistinct : (m.faults.map fun found => found.2.ctorIdx).Nodup :=
      m.sublist_faultKinds.nodup (by decide)
    rw [hreports, List.filter_append, hnone, List.nil_append, hown]
    refine List.Pairwise.filter _ ?_
    rw [List.pairwise_map]
    rw [List.Nodup, List.pairwise_map] at hdistinct
    exact hdistinct
  · rw [← @Number.exists_shows_invalidSeparator_iff _ scan.kind]
    constructor
    · rintro ⟨⟨position, fault⟩, hmem, rfl⟩
      obtain ⟨i, hshows, -⟩ := (hreport rfl).1 hmem
      exact ⟨i, hshows⟩
    · rintro ⟨i, hshows⟩
      exact ⟨_, (hreport rfl).2 ⟨i, hshows, rfl⟩, rfl⟩

end Scan.IsAt

namespace Source

/-- The text of every number can be laid out in just one way, and the reports about the number are
those that its layout shows, at the places where they show, and no two of them of one kind. -/
theorem number_reports (source : Source) (config : Config) (n : Nat)
    (h : (source.nthScan config n).kind = .integer ∨ (source.nthScan config n).kind = .float) :
    ∃ layout, (source.nthScan config n).IsNumber layout := by
  have hlexeme : (source.nthScan config n).kind ≠ .endOfInput := by
    rcases h with h | h <;> rw [h] <;> decide
  obtain ⟨place, c, rest, hat⟩ := source.exists_lexeme config n hlexeme
  rw [hat.kind_eq] at h
  exact hat.isNumber (Lexeme.read_of_kind_number h).1

/-- Nothing about this number is in order: the point, the missing digits, the exponent with its
missing digits and the underscore that the point follows. -/
theorem number_reports_of_octal :
    let scan := (Source.ofString "0o_.P-_").nthScan .full 0
    (scan.kind = .integer ∨ scan.kind = .float) ∧
      scan.reports.map (fun report => (report.position.offset, report.fault)) =
        [(3, .invalidRadixPoint .octal), (4, .noDigits .octal), (4, .exponentRequiresHex 'P'),
          (7, .exponentNoDigits), (2, .invalidSeparator)] ∧
      ∃ layout, scan.IsNumber layout := by
  have hkind : ((Source.ofString "0o_.P-_").nthScan .full 0).kind = .integer ∨
      ((Source.ofString "0o_.P-_").nthScan .full 0).kind = .float := .inr (by decide +kernel)
  exact ⟨hkind, by decide +kernel, number_reports _ _ _ hkind⟩

end Source

end Lexis
