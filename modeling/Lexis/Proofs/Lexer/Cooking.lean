import Lexis.Proofs.Lexer.Apostrophes

/-!
# What a lexer makes of a scan

`Scan.Gives` says what a lexer has to answer where a scanner tells of a lexeme, in terms of what the
scanner tells and reports: a report that is not tolerated comes first, a literal stands for its
value, and all else stands for itself. As long as a lexer has not failed, its results are given by
the scans of a scanner of its own, one by one (`Lexer.gives_iff_nth_eq`).
-/

namespace Lexis

/-- What a lexer has to answer where `scan` is what a scanner tells, in a source of the given
name. -/
inductive Scan.Gives (scan : Scan) (file : String) : Except Failure Token → Prop
  /-- A report comes before the lexeme itself, unless it says no more than that a literal does not
  hold one character. The first such report counts. -/
  | fault {before after : List Report} {report : Report}
      (hreports : scan.reports = before ++ report :: after)
      (hbefore : ∀ earlier ∈ before, earlier.fault = .illegalCharLiteral)
      (hfault : report.fault ≠ .illegalCharLiteral) :
      Gives scan file (.error ⟨⟨file, report.position⟩, .scan report.fault⟩)
  | string {value : String}
      (htolerated : ∀ report ∈ scan.reports, report.fault = .illegalCharLiteral)
      (hkind : scan.kind = .string) (hvalue : unquote scan.text = .ok value) :
      Gives scan file (.ok ⟨Kind.string.code, value, ⟨file, scan.start⟩⟩)
  | stringError {error : UnquoteError}
      (htolerated : ∀ report ∈ scan.reports, report.fault = .illegalCharLiteral)
      (hkind : scan.kind = .string) (herror : unquote scan.text = .error error) :
      Gives scan file (.error ⟨⟨file, scan.start⟩, .unquote error⟩)
  /-- What stands between apostrophes has the value that it has between double quotes. -/
  | char {body : List Char} {value : String}
      (htolerated : ∀ report ∈ scan.reports, report.fault = .illegalCharLiteral)
      (hkind : scan.kind = .char) (htext : scan.text = '\x27' :: body ++ ['\x27'])
      (hvalue : unquote ('\x22' :: body ++ ['\x22']) = .ok value) :
      Gives scan file (.ok ⟨(if value.length ≤ 1 then Kind.char else Kind.string).code, value,
        ⟨file, scan.start⟩⟩)
  | charError {body : List Char} {error : UnquoteError}
      (htolerated : ∀ report ∈ scan.reports, report.fault = .illegalCharLiteral)
      (hkind : scan.kind = .char) (htext : scan.text = '\x27' :: body ++ ['\x27'])
      (herror : unquote ('\x22' :: body ++ ['\x22']) = .error error) :
      Gives scan file (.error ⟨⟨file, scan.start⟩, .unquote error⟩)
  /-- What stands between backticks is taken as it is. -/
  | rawString {value : List Char}
      (htolerated : ∀ report ∈ scan.reports, report.fault = .illegalCharLiteral)
      (hkind : scan.kind = .rawString) (htext : scan.text = '\x60' :: value ++ ['\x60']) :
      Gives scan file (.ok ⟨Kind.rawString.code, String.ofList value, ⟨file, scan.start⟩⟩)
  | other (htolerated : ∀ report ∈ scan.reports, report.fault = .illegalCharLiteral)
      (hkind : scan.kind ∉ [.string, .char, .rawString]) :
      Gives scan file (.ok ⟨scan.kind.code, String.ofList scan.text, ⟨file, scan.start⟩⟩)

/-! ## One scan -/

namespace Scan

variable {scan : Scan} {file : String}

/-- Kinds other than those of literals are kept, and so are the texts. -/
theorem cook_of_notMem {kind : Kind} (h : kind ∉ [.string, .char, .rawString]) (text : List Char) :
    cook kind text = .ok (kind, String.ofList text) := by
  cases kind with
  | string => simp at h
  | char => simp at h
  | rawString => simp at h
  | _ => rfl

/-- What has to be answered is what a lexer makes of the scan. -/
theorem Gives.toToken_eq {result : Except Failure Token} (h : scan.Gives file result) :
    scan.toToken file = result := by
  cases h with
  | @fault before after report hreports hbefore hfault =>
    have hfatal : scan.fatal? = some report := by
      rw [fatal?, List.find?_eq_some_iff_append]
      refine ⟨by simpa using hfault, before, after, hreports, ?_⟩
      intro earlier hearlier
      simp [hbefore earlier hearlier]
    rw [toToken, hfatal]
  | string htolerated hkind hvalue =>
    rw [toToken_of_tolerated htolerated, hkind, cook, hvalue]
    rfl
  | stringError htolerated hkind herror =>
    rw [toToken_of_tolerated htolerated, hkind, cook, herror]
    rfl
  | @char body value htolerated hkind htext hvalue =>
    rw [toToken_of_tolerated htolerated, hkind, htext, cook, stripDelimiters_quoted, hvalue]
    by_cases hone : value.length ≤ 1
    · simp [Except.map, hone, Nat.not_lt.2 hone]
    · simp [Except.map, hone, Nat.not_le.1 hone]
  | charError htolerated hkind htext herror =>
    rw [toToken_of_tolerated htolerated, hkind, htext, cook, stripDelimiters_quoted, herror]
    rfl
  | rawString htolerated hkind htext =>
    rw [toToken_of_tolerated htolerated, hkind, htext, cook, stripDelimiters_quoted]
  | other htolerated hkind => rw [toToken_of_tolerated htolerated, cook_of_notMem hkind]

/-- A literal between backticks of which no fault is reported has both its marks. -/
theorem IsAt.text_of_rawString {mode : Mode} {cursor : Cursor} {c : SourceChar}
    {rest : List SourceChar} (h : scan.IsAt mode cursor c rest) (hkind : scan.kind = .rawString)
    (htolerated : ∀ report ∈ scan.ownReports, report.fault = .illegalCharLiteral) :
    ∃ value, scan.text = '\x60' :: value ++ ['\x60'] := by
  obtain ⟨-, hread⟩ := Lexeme.read_of_kind_eq .backticks (h.kind_eq ▸ hkind)
  have hclosed : (Enclosed.read Lexeme.backtick rest).closed = true := by
    rw [h.ownReports_eq, hread] at htolerated
    have hclean : ∀ report ∈ ((Reading.ofCursor cursor).bump.consumeEnclosed Lexeme.backtick
        .literalNotTerminated (.read Lexeme.backtick rest)).reports.toList,
          report.fault ≠ .literalNotTerminated := by
      intro report hreport
      rw [htolerated report hreport]
      exact Fault.noConfusion
    exact Reading.closed_of_consumeEnclosed hclean
  refine ⟨plainText (Enclosed.read Lexeme.backtick rest).body, ?_⟩
  rw [h.text_eq, hread, Quoting.read, Lexeme.text, Lexeme.chars, Enclosed.charsThrough, hclosed,
    if_pos rfl, plainText_cons, plainText_append]
  rfl

/-- Where there is a report that is not tolerated, the first such one is to be answered. -/
theorem exists_gives_of_fault
    (h : ¬ ∀ report ∈ scan.reports, report.fault = .illegalCharLiteral) :
    ∃ result, scan.Gives file result := by
  cases hfatal : scan.fatal? with
  | none =>
    rw [fatal?, List.find?_eq_none] at hfatal
    exact absurd (by simpa using hfatal) h
  | some report =>
    rw [fatal?, List.find?_eq_some_iff_append] at hfatal
    obtain ⟨hfault, before, after, hreports, hbefore⟩ := hfatal
    exact ⟨_, .fault hreports (by simpa using hbefore) (by simpa using hfault)⟩

end Scan

/-- For every scan of a source there is an answer. -/
theorem Source.exists_gives (source : Source) (config : Config) (n : Nat) (file : String) :
    ∃ result, (source.nthScan config n).Gives file result := by
  by_cases htolerated :
      ∀ report ∈ (source.nthScan config n).reports, report.fault = .illegalCharLiteral
  swap
  · exact Scan.exists_gives_of_fault htolerated
  have hown : ∀ report ∈ (source.nthScan config n).ownReports,
      report.fault = .illegalCharLiteral :=
    fun report hreport => htolerated report (List.mem_filter.1 hreport).1
  by_cases hstring : (source.nthScan config n).kind = .string
  · cases hunquote : unquote (source.nthScan config n).text with
    | ok value => exact ⟨_, .string htolerated hstring hunquote⟩
    | error error => exact ⟨_, .stringError htolerated hstring hunquote⟩
  by_cases hchar : (source.nthScan config n).kind = .char
  · obtain ⟨place, c, rest, hat⟩ := source.exists_lexeme config n (by rw [hchar]; decide)
    obtain ⟨body, htext, -⟩ := hat.bodyText_of_char hchar hown
    cases hunquote : unquote ('\x22' :: body ++ ['\x22']) with
    | ok value => exact ⟨_, .char htolerated hchar htext hunquote⟩
    | error error => exact ⟨_, .charError htolerated hchar htext hunquote⟩
  by_cases hraw : (source.nthScan config n).kind = .rawString
  · obtain ⟨place, c, rest, hat⟩ := source.exists_lexeme config n (by rw [hraw]; decide)
    obtain ⟨value, htext⟩ := hat.text_of_rawString hraw hown
    exact ⟨_, .rawString htolerated hraw htext⟩
  · exact ⟨_, .other htolerated (by simp [hstring, hchar, hraw])⟩

namespace Lexer

variable {config : Config} {file : String} {source : Source}

/-- A lexer is a scanner and the cooking of what it tells. As long as no earlier result was a
failure, the result with a number is what the scan with that number gives: what a scanner of its own
tells there, with the reports that it adds to those held before. -/
theorem gives_iff_nth_eq {n : Nat} (result : Except Failure Token)
    (h : ∀ k < n, ∃ token, (ofSource config file source).nth k = .ok token) :
    let before := (Recorder.ofSource config source).scans n
    before.scan.2.held.toList = before.held.toList ++ before.scan.1.reports ∧
      (before.scan.1.Gives file result ↔ (ofSource config file source).nth n = result) := by
  intro before
  have hscan : (source.nthScan config n).toToken file = (ofSource config file source).nth n :=
    (nth_eq_toToken h).symm
  refine ⟨Array.toList_appendList, ?_⟩
  constructor
  · intro hgives
    rw [← hscan]
    exact hgives.toToken_eq
  · rintro rfl
    obtain ⟨result, hgives⟩ := source.exists_gives config n file
    rw [← hscan, hgives.toToken_eq]
    exact hgives

/-- A literal with two characters between apostrophes is reported and tolerated. The string behind
it is decoded, and the literal that is not closed is what the lexer fails for. -/
theorem gives_iff_nth_eq_at_literals :
    let source := Source.ofString "'ab' \"\\x41\" \x60c"
    let scan := fun n => (((Recorder.ofSource .full source).scans n).scan).1
    (scan 1).Gives "" (.ok ⟨Kind.string.code, "A", ⟨"", ⟨5, 1, 6⟩⟩⟩) ∧
      (ofString "'ab' \"\\x41\" \x60c").nth 1 = .ok ⟨Kind.string.code, "A", ⟨"", ⟨5, 1, 6⟩⟩⟩ ∧
      (scan 2).Gives "" (.error ⟨⟨"", ⟨14, 1, 15⟩⟩, .scan .literalNotTerminated⟩) ∧
      (ofString "'ab' \"\\x41\" \x60c").nth 2 =
        .error ⟨⟨"", ⟨14, 1, 15⟩⟩, .scan .literalNotTerminated⟩ := by
  intro source scan
  have hfirst : ∃ token, (ofSource .full "" source).nth 0 = .ok token := by
    refine ⟨⟨Kind.string.code, "ab", ⟨"", ⟨0, 1, 1⟩⟩⟩, ?_⟩
    decide +kernel
  have hstring : (scan 1).Gives "" (.ok ⟨Kind.string.code, "A", ⟨"", ⟨5, 1, 6⟩⟩⟩) := by
    have h : (scan 1).Gives "" (.ok ⟨Kind.string.code, "A", ⟨"", (scan 1).start⟩⟩) :=
      .string (by decide +kernel) (by decide +kernel) (by decide +kernel)
    have hstart : (scan 1).start = ⟨5, 1, 6⟩ := by decide +kernel
    rwa [hstart] at h
  have hfault : (scan 2).Gives "" (.error ⟨⟨"", ⟨14, 1, 15⟩⟩, .scan .literalNotTerminated⟩) := by
    have hreports : (scan 2).reports = [] ++ ⟨⟨14, 1, 15⟩, .literalNotTerminated⟩ :: [] := by
      decide +kernel
    exact .fault hreports (List.forall_mem_nil _) (by decide)
  have hbefore : ∀ k < 1, ∃ token, (ofSource .full "" source).nth k = .ok token := by
    intro k hk
    rw [Nat.lt_one_iff.1 hk]
    exact hfirst
  have hsecond := ((gives_iff_nth_eq _ hbefore).2.1 hstring)
  have hbefore' : ∀ k < 2, ∃ token, (ofSource .full "" source).nth k = .ok token := by
    intro k hk
    rcases Nat.lt_succ_iff_lt_or_eq.1 hk with hlt | rfl
    · exact hbefore k hlt
    · exact ⟨_, hsecond⟩
  exact ⟨hstring, hsecond, hfault, (gives_iff_nth_eq _ hbefore').2.1 hfault⟩

end Lexer

end Lexis
