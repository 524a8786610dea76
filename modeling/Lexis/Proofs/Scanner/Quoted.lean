import Lexis.Proofs.Scanner.Whole
import Lexis.Proofs.Token.Unquote

/-!
# Quoted literals that are scanned and read

A scanner checks how a quoted literal is written, and `unquote` finds the value of one. The two look
at escapes in ways of their own, and agree (`Source.quoted_agree`): what the scanner has nothing to
say about fails to have a value only for what its escapes denote, and what has a value is scanned as
one string without complaint.
-/

namespace Lexis

namespace Quoted

/-- A closed literal is its body between two quotes. -/
theorem plainText_chars {q : Quoted} (h : q.closed = true) :
    plainText q.chars = q.quote :: plainText q.body ++ [q.quote] := by
  rw [chars, h, if_pos rfl, plainText_append, plainText_cons]
  rfl

end Quoted

namespace Scan.IsAt

variable {scan : Scan} {mode : Mode} {cursor : Cursor} {c : SourceChar} {rest : List SourceChar}

/-- A string without a report of its own is written as a literal between double quotes has to be. -/
theorem bodyText_of_string (h : scan.IsAt mode cursor c rest) (hkind : scan.kind = .string)
    (hreports : scan.ownReports = []) :
    ∃ body, scan.text = '\x22' :: body ++ ['\x22'] ∧ BodyText '\x22' body := by
  obtain ⟨-, hread⟩ := Lexeme.read_of_kind_eq .double (h.kind_eq ▸ hkind)
  have hown := h.ownReports_eq
  rw [hread, hreports] at hown
  have hquoted :
      ((Reading.ofCursor cursor).consumeQuoted (.read '\x22' rest)).reports.toList = [] :=
    hown.symm
  obtain ⟨hwhole, hbody⟩ := Quoted.bodyText_of_reports (r := .ofCursor cursor) <|
    hquoted ▸ List.forall_mem_nil _
  refine ⟨_, ?_, hbody⟩
  rw [h.text_eq, hread]
  exact Quoted.plainText_chars hwhole.closed

/-- A literal between apostrophes about which nothing is reported but that it does not hold one
character is written as such a literal has to be. -/
theorem bodyText_of_char (h : scan.IsAt mode cursor c rest) (hkind : scan.kind = .char)
    (hreports : ∀ report ∈ scan.ownReports, report.fault = .illegalCharLiteral) :
    ∃ body, scan.text = '\x27' :: body ++ ['\x27'] ∧ BodyText '\x27' body := by
  obtain ⟨-, hread⟩ := Lexeme.read_of_kind_eq .single (h.kind_eq ▸ hkind)
  rw [h.ownReports_eq, hread, Quoting.read] at hreports
  have hquoted : ∀ report ∈
      ((Reading.ofCursor cursor).consumeQuoted (.read '\x27' rest)).reports.toList,
      report.fault = .illegalCharLiteral := by
    intro report hreport
    apply hreports
    rw [Lexeme.reportsAt, Reading.consume]
    split
    · exact hreport
    · rw [Reading.reportAt, Array.toList_push]
      exact List.mem_append_left _ hreport
  obtain ⟨hwhole, hbody⟩ := Quoted.bodyText_of_reports hquoted
  refine ⟨_, ?_, hbody⟩
  rw [h.text_eq, hread]
  exact Quoted.plainText_chars hwhole.closed

end Scan.IsAt

/-! ## Scanning what has a value -/

namespace SourceChar

/-- Of a text only the NULs are reported, each where it stands. -/
theorem reportsFrom_map_valid (p : Position) (text : List Char) :
    (reportsFrom p (text.map .valid)).map (fun report => (report.fault, report.position.offset)) =
      (offsetsFrom (·.char == '\x00') p.offset (text.map .valid)).map (Fault.nulCharacter, ·) := by
  induction text generalizing p with
  | nil => rfl
  | cons c text ih =>
    have hnext : (p.next c).offset = p.offset + (SourceChar.valid c).size := by
      rw [Position.next_eq_locate]
      rfl
    rw [List.map_cons, reportsFrom_cons, offsetsFrom_cons, List.map_append, List.map_append,
      char_valid, ih, hnext]
    congr 1
    by_cases hc : c = '\x00'
    · subst hc
      rfl
    · have hnone := (fault?_eq_none_iff (.valid c)).2 ⟨c, rfl, hc⟩
      rw [hnone, if_neg (by simpa using hc)]
      rfl

end SourceChar

namespace Scanner

/-- Between double quotes a body that is written as it has to be is scanned as one string, whatever
follows it, and what is reported of it are its NULs. -/
theorem scan_of_bodyText {s : Scanner} (hconfig : s.config = .full) {body : List Char}
    (h : BodyText '\x22' body) {more : List SourceChar}
    (hrest : s.cursor.rest = ('\x22' :: body ++ ['\x22']).map .valid ++ more) :
    s.scan.1.kind = .string ∧ s.scan.1.text = '\x22' :: body ++ ['\x22'] ∧
      s.scan.1.reports = SourceChar.reportsFrom s.cursor.position
        (('\x22' :: body ++ ['\x22']).map .valid) ∧
      s.scan.2.cursor = s.cursor.advance ('\x22' :: body ++ ['\x22']).length := by
  obtain ⟨hwhole, hliteral⟩ := Quoted.isWhole_read (by decide) (by decide) (by decide) h more
  have hcons : s.cursor.rest = .valid '\x22' :: (body.map .valid ++ .valid '\x22' :: more) := by
    simp [hrest]
  have hread (rest : List SourceChar) :
      Lexeme.read s.config.mode (.valid '\x22') rest = .string (.read '\x22' rest) := by
    rw [hconfig]
    exact Lexeme.read_mark .double (by decide) rest
  have hshown : s.config.passesOver (.valid '\x22')
      (body.map .valid ++ .valid '\x22' :: more) = false := by
    rw [Config.passesOver, hread, hconfig]
    rfl
  have hfinds : s.Finds 0 _ _ :=
    finds_of_blanks (hcons.trans (List.nil_append _).symm) (List.forall_mem_nil _) hshown
  have hkind := hfinds.kind_eq
  have htext := hfinds.text_eq
  have hreports := hfinds.reports_eq
  have hafter := hfinds.cursor_eq
  have hstart : s.cursor.advance 0 = s.cursor := rfl
  rw [hread] at hkind htext hreports hafter
  rw [Lexeme.text, Lexeme.chars, hliteral, plainText_map_valid] at htext
  rw [hstart, Lexeme.chars, hliteral, List.length_map] at hafter
  refine ⟨hkind, htext, ?_, hafter⟩
  -- without faults of its own, the literal is read character by character
  have htaken : s.cursor.rest.take (('\x22' :: body ++ ['\x22']).map SourceChar.valid).length =
      ('\x22' :: body ++ ['\x22']).map .valid := by
    rw [hrest, List.take_left]
  rw [hreports, hstart, Lexeme.reportsAt_of_isWhole (.string hwhole), Lexeme.chars, hliteral,
    htaken]
  rfl

end Scanner

namespace Source

/-- Scanners and `unquote` agree on how quoted literals are written. A string about which nothing is
reported has a value, or fails to have one for what its escapes denote. A literal between
apostrophes about which nothing is reported but that it does not hold one character is, put between
double quotes, not found to lack its quotes, to run over a line or to break off an escape, and the
only escape unknown there is that of the apostrophe. And every literal that has a value is scanned
as one string, with nothing to report but its NULs. -/
theorem quoted_agree :
    (∀ (config : Config) (source : Source) (n : Nat),
      ((source.nthScan config n).kind = .string → (source.nthScan config n).ownReports = [] →
        (∃ value, unquote (source.nthScan config n).text = .ok value) ∨
          ∃ error, unquote (source.nthScan config n).text = .error error ∧
            error.isOfValue = true) ∧
      ((source.nthScan config n).kind = .char →
        (∀ report ∈ (source.nthScan config n).ownReports, report.fault = .illegalCharLiteral) →
        ∃ body, (source.nthScan config n).text = '\x27' :: body ++ ['\x27'] ∧
          ∀ error, unquote ('\x22' :: body ++ ['\x22']) = .error error →
            error ≠ .notQuoted ∧ error ≠ .newline ∧ (∀ c, error ≠ .incompleteEscape c) ∧
              ∀ c, error = .unknownEscape c → c = '\x27')) ∧
    ∀ (literal : List Char) (value : String), unquote literal = .ok value →
      let scans := ((Scanner.ofSource .full (.ofText literal)).scanAll).1
      scans.map (fun scan => (scan.kind, scan.text)) =
          [(.string, literal), (.endOfInput, [])] ∧
        (scans.flatMap Scan.reports).map (fun report => (report.fault, report.position.offset)) =
          ((Source.ofText literal).offsetsOf (·.char == '\x00')).map (Fault.nulCharacter, ·) := by
  refine ⟨fun config source n => ⟨?_, ?_⟩, ?_⟩
  · intro hkind hreports
    obtain ⟨place, c, rest, hat⟩ := source.exists_lexeme config n (by rw [hkind]; decide)
    obtain ⟨body, htext, hbody⟩ := hat.bodyText_of_string hkind hreports
    rw [htext]
    refine (Unquote.unquote_of_bodyText (.inl rfl) hbody).imp_right ?_
    rintro ⟨error, herror, hvalue | ⟨habsurd, -⟩⟩
    · exact ⟨error, herror, hvalue⟩
    · exact absurd habsurd (by decide)
  · intro hkind hreports
    obtain ⟨place, c, rest, hat⟩ := source.exists_lexeme config n (by rw [hkind]; decide)
    obtain ⟨body, htext, hbody⟩ := hat.bodyText_of_char hkind hreports
    refine ⟨body, htext, ?_⟩
    intro error herror
    rcases Unquote.unquote_of_bodyText (.inr rfl) hbody with ⟨value, hok⟩ | ⟨error', hfail, htol⟩
    · rw [hok] at herror
      cases herror
    rw [hfail] at herror
    cases herror
    rcases htol with hvalue | ⟨-, rfl | rfl⟩
    · cases error with
      | octalOutOfRange _ | invalidCodePoint _ | invalidUtf8 => simp
      | _ => cases hvalue
    · simp
    · simp [eq_comm]
  · intro literal value hvalue
    obtain ⟨body, rfl, hbody⟩ := Unquote.bodyText_of_unquote hvalue
    dsimp only
    generalize hs : Scanner.ofSource .full (.ofText ('\x22' :: body ++ ['\x22'])) = s
    have hrest : s.cursor.rest = ('\x22' :: body ++ ['\x22']).map .valid := by
      rw [← hs]
      rfl
    have hstart : s.cursor.position = .start := by
      rw [← hs]
      rfl
    have hconfig : s.config = .full := by
      rw [← hs]
      rfl
    obtain ⟨hkind, htext, hreports, hafter⟩ :=
      Scanner.scan_of_bodyText hconfig hbody (hrest.trans (List.append_nil _).symm)
    -- nothing is left behind the literal, so the next scan tells the end
    have hend : s.scan.2.cursor.rest = [] := by
      rw [hafter, Cursor.advance_rest, hrest, List.drop_eq_nil_iff, List.length_map]
    have hlast := Scanner.scan_of_rest_eq_nil hend
    have hall : s.scanAll.1 = [s.scan.1, s.scan.2.scan.1] := by
      rw [Scanner.scanAll_of_lexeme (by rw [hkind]; decide),
        Scanner.scanAll_of_endOfInput (by rw [hlast])]
    rw [hall, hlast]
    refine ⟨?_, ?_⟩
    · rw [List.map_cons, hkind, htext]
      rfl
    · rw [List.flatMap_cons, hreports, hstart, List.flatMap_singleton, List.append_nil]
      exact SourceChar.reportsFrom_map_valid .start _

/-- An octal escape above 255 is scanned without complaint and denotes no byte; an escaped
apostrophe is scanned between apostrophes and is not known between double quotes; and the literal
that holds a NUL has a value. -/
theorem quoted_agree_at_escapes :
    (let scan := (Source.ofString "\x22\\400\x22").nthScan .full 0
     scan.kind = .string ∧ scan.ownReports = [] ∧
       ((∃ value, unquote scan.text = .ok value) ∨
         ∃ error, unquote scan.text = .error error ∧ error.isOfValue = true)) ∧
    (let scan := (Source.ofString "'\\' '").nthScan .full 0
     scan.kind = .char ∧ (∀ report ∈ scan.ownReports, report.fault = .illegalCharLiteral) ∧
       ∃ body, scan.text = '\x27' :: body ++ ['\x27'] ∧
         ∀ error, unquote ('\x22' :: body ++ ['\x22']) = .error error →
           error ≠ .notQuoted ∧ error ≠ .newline ∧ (∀ c, error ≠ .incompleteEscape c) ∧
             ∀ c, error = .unknownEscape c → c = '\x27') ∧
    (unquote ['\x22', '\x00', '\x22'] = .ok "\x00" ∧
      ((Scanner.ofSource .full (.ofText ['\x22', '\x00', '\x22'])).scanAll.1).map
        (fun scan => (scan.kind, scan.text)) =
          [(.string, ['\x22', '\x00', '\x22']), (.endOfInput, [])]) := by
  have hstring : ((Source.ofString "\x22\\400\x22").nthScan .full 0).kind = .string := by
    decide +kernel
  have hclean : ((Source.ofString "\x22\\400\x22").nthScan .full 0).ownReports = [] := by
    decide +kernel
  have hchar : ((Source.ofString "'\\' '").nthScan .full 0).kind = .char := by decide +kernel
  have hillegal : ∀ report ∈ ((Source.ofString "'\\' '").nthScan .full 0).ownReports,
      report.fault = .illegalCharLiteral := by
    decide +kernel
  have hvalue : unquote ['\x22', '\x00', '\x22'] = .ok "\x00" := by cbv
  exact ⟨⟨hstring, hclean, (quoted_agree.1 _ _ _).1 hstring hclean⟩,
    ⟨hchar, hillegal, (quoted_agree.1 _ _ _).2 hchar hillegal⟩,
    ⟨hvalue, (quoted_agree.2 _ _ hvalue).1⟩⟩

end Source

end Lexis
