import Lexis.Proofs.Lexer.Lookahead
import Lexis.Proofs.Scanner.Quoted
import Lexis.Proofs.Token.Denotation

/-!
# Tokens of literals between apostrophes

As long as a lexer has not failed, its results are made of the scans of its source, one of each
(`Lexer.nth_eq_toToken`). A literal between apostrophes whose escapes denote something has what its
body denotes as the value of its token, however many characters that is, unless a double quote
stands in the body: the value is looked for between double quotes, so the lexer fails there
(`Lexer.nth_of_char`).
-/

namespace Lexis

/-- The token of a literal is the cooked text, where there is nothing to report but that the literal
does not hold one character. -/
theorem Scan.toToken_of_tolerated {scan : Scan} {file : String}
    (h : ∀ report ∈ scan.reports, report.fault = .illegalCharLiteral) :
    scan.toToken file =
      match cook scan.kind scan.text with
      | .error error => .error ⟨⟨file, scan.start⟩, .unquote error⟩
      | .ok (kind, value) => .ok ⟨kind.code, value, ⟨file, scan.start⟩⟩ := by
  have hfatal : scan.fatal? = none := by
    rw [fatal?, List.find?_eq_none]
    intro report hreport
    simp [h report hreport]
  unfold toToken
  cases cook scan.kind scan.text with
  | error error => simp only [hfatal]
  | ok cooked => simp only [hfatal]

/-- A report that is not to be tolerated, with only tolerable ones before it, is what the token
fails for. -/
theorem Scan.toToken_of_reports_eq_cons {scan : Scan} {file : String} {report : Report}
    {reports : List Report} (h : scan.reports = report :: reports)
    (hfault : report.fault ≠ .illegalCharLiteral) :
    scan.toToken file = .error ⟨⟨file, report.position⟩, .scan report.fault⟩ := by
  have hfatal : scan.fatal? = some report := by
    rw [fatal?, h, List.find?_cons_of_pos (by simpa using hfault)]
  rw [toToken, hfatal]

theorem stripDelimiters_quoted (open' close : Char) (body : List Char) :
    stripDelimiters (open' :: body ++ [close]) = body := by
  simp [stripDelimiters]

namespace Lexer

/-! ## Numbered results and numbered scans -/

variable {config : Config} {file : String} {source : Source}

/-- A lexer that has not failed has scanned once for each result. -/
theorem taken_ofSource {n : Nat}
    (h : ∀ k < n, ∃ token, (ofSource config file source).nth k = .ok token) :
    ((ofSource config file source).taken n).scanner = source.scannerAfter config n ∧
      ((ofSource config file source).taken n).file = file ∧
      ((ofSource config file source).taken n).lookahead = none ∧
      ((ofSource config file source).taken n).failure = none := by
  induction n with
  | zero => exact ⟨rfl, rfl, rfl, rfl⟩
  | succ n ih =>
    obtain ⟨hscanner, hfile, hlookahead, hfailure⟩ := ih fun k hk => h k (by omega)
    obtain ⟨token, htoken⟩ := h n (Nat.lt_succ_self n)
    have hmade := made_makeToken hfailure
    have hnext := next_of_lookahead_eq_none hlookahead
    rw [nth, hnext] at htoken
    rw [taken, Function.iterate_succ_apply', ← taken, hnext]
    refine ⟨?_, ?_, ?_, ?_⟩
    · rw [hmade.scanner_eq, hscanner]
      rfl
    · rw [hmade.file_eq, hfile]
    · rw [hmade.lookahead_eq, hlookahead]
    · rw [hmade.failure_eq, htoken]
      rfl

/-- As long as it has not failed, a lexer makes its results of the scans of the source. -/
theorem nth_eq_toToken {n : Nat}
    (h : ∀ k < n, ∃ token, (ofSource config file source).nth k = .ok token) :
    (ofSource config file source).nth n = (source.nthScan config n).toToken file := by
  obtain ⟨hscanner, hfile, hlookahead, hfailure⟩ := taken_ofSource h
  rw [nth, next_of_lookahead_eq_none hlookahead, (made_makeToken hfailure).result_eq, hscanner,
    hfile]
  rfl

/-! ## Literals between apostrophes -/

/-- Literals between apostrophes about which nothing is reported but that they do not hold one
character. What is reported of the gap before such a literal comes first. Otherwise, where the
escapes in the body denote something, the value of the token is the text whose bytes the body
denotes, unless a double quote stands in the body. -/
theorem nth_of_char {n : Nat}
    (h : ∀ k < n, ∃ token, (ofSource .full file source).nth k = .ok token)
    (hkind : (source.nthScan .full n).kind = .char)
    (hreports : ∀ report ∈ (source.nthScan .full n).ownReports,
      report.fault = .illegalCharLiteral) :
    ∃ body, (source.nthScan .full n).text = '\x27' :: body ++ ['\x27'] ∧ BodyText '\x27' body ∧
      (∀ report,
        (source.nthScan .full n).reports.find?
          (fun report => report.position.offset < (source.nthScan .full n).start.offset) =
            some report →
        (ofSource .full file source).nth n =
          .error ⟨⟨file, report.position⟩, .scan report.fault⟩) ∧
      ((∀ report ∈ (source.nthScan .full n).reports,
          (source.nthScan .full n).start.offset ≤ report.position.offset) →
        ∀ bytes value, BodyDenotes '\x27' simpleEscapes body bytes →
          String.fromUTF8? bytes.toByteArray = some value →
          (ofSource .full file source).nth n =
            if '\x22' ∈ body then
              .error ⟨⟨file, (source.nthScan .full n).start⟩, .unquote .unescapedQuote⟩
            else
              .ok ⟨(if value.length > 1 then Kind.string else Kind.char).code, value,
                ⟨file, (source.nthScan .full n).start⟩⟩) := by
  obtain ⟨place, c, rest, hat⟩ := source.exists_lexeme .full n (by rw [hkind]; decide)
  obtain ⟨body, htext, hbody⟩ := hat.bodyText_of_char hkind hreports
  obtain ⟨gap, hall, hgap⟩ := hat.reports_eq
  refine ⟨body, htext, hbody, ?_, ?_⟩
  · intro report hfirst
    rw [nth_eq_toToken h]
    cases gap with
    | nil =>
      -- nothing was reported of the gap
      rw [List.nil_append] at hall
      have hmem := List.mem_of_find?_eq_some hfirst
      have hbefore := List.find?_some hfirst
      rw [hall, Scan.ownReports, List.mem_filter] at hmem
      simp only [decide_eq_true_eq] at hmem hbefore
      omega
    | cons first gap =>
      obtain ⟨hlt, hcharacter⟩ := hgap first List.mem_cons_self
      rw [hall, List.cons_append, List.find?_cons_of_pos (by simpa using hlt)] at hfirst
      cases hfirst
      refine Scan.toToken_of_reports_eq_cons (hall.trans (List.cons_append ..)) ?_
      intro hfault
      rw [hfault] at hcharacter
      cases hcharacter
  · intro hclean bytes value hdenotes hvalue
    have htolerated : ∀ report ∈ (source.nthScan .full n).reports,
        report.fault = .illegalCharLiteral := by
      intro report hreport
      exact hreports report (List.mem_filter.2 ⟨hreport, decide_eq_true (hclean report hreport)⟩)
    have hunquote := Unquote.unquote_of_bodyDenotes hdenotes hvalue
    rw [nth_eq_toToken h, Scan.toToken_of_tolerated htolerated, hkind, htext]
    by_cases hquote : '\x22' ∈ body
    · rw [if_pos hquote] at hunquote
      rw [if_pos hquote, cook, stripDelimiters_quoted, hunquote]
      rfl
    · rw [if_neg hquote] at hunquote
      rw [if_neg hquote, cook, stripDelimiters_quoted, hunquote]
      rfl

/-- The first literal has two characters when its escape is decoded, and becomes a string. In the
second stands a double quote. -/
theorem nth_of_char_two_literals :
    (ofString "'\\x41b' '\x22'").nth 0 = .ok ⟨Kind.string.code, "Ab", ⟨"", ⟨0, 1, 1⟩⟩⟩ ∧
      (ofString "'\\x41b' '\x22'").nth 1 =
        .error ⟨⟨"", ⟨8, 1, 9⟩⟩, .unquote .unescapedQuote⟩ := by
  let source : Source := .ofString "'\\x41b' '\x22'"
  have hfirst : (ofSource .full "" source).nth 0 =
      .ok ⟨Kind.string.code, "Ab", ⟨"", ⟨0, 1, 1⟩⟩⟩ := by
    obtain ⟨body, htext, -, -, hvalue⟩ :=
      @nth_of_char "" source 0 (by simp) (by decide +kernel) (by decide +kernel)
    have hscan : (source.nthScan .full 0).text =
        '\x27' :: ['\x5c', 'x', '4', '1', 'b'] ++ ['\x27'] := by
      decide +kernel
    have hbody : ['\x5c', 'x', '4', '1', 'b'] = body :=
      (List.cons.inj (List.append_cancel_right (hscan.symm.trans htext))).2
    subst hbody
    have hescape : EscapeDenotes simpleEscapes ['x', '4', '1'] [0x41] :=
      .byte rfl (List.forall_mem_cons.2 ⟨rfl, List.forall_mem_singleton.2 rfl⟩)
    have hdenotes : BodyDenotes '\x27' simpleEscapes ['\x5c', 'x', '4', '1', 'b'] [0x41, 0x62] :=
      .escape hescape (.plain (by decide) (by decide) (by decide) .nil)
    rw [hvalue (by decide +kernel) [0x41, 0x62] "Ab" hdenotes (by decide +kernel)]
    decide +kernel
  have hbefore : ∀ k < 1, ∃ token, (ofSource .full "" source).nth k = .ok token := by
    intro k hk
    rw [Nat.lt_one_iff.1 hk]
    exact ⟨_, hfirst⟩
  obtain ⟨body, htext, -, -, hvalue⟩ :=
    @nth_of_char "" source 1 hbefore (by decide +kernel) (by decide +kernel)
  have hscan : (source.nthScan .full 1).text = '\x27' :: ['\x22'] ++ ['\x27'] := by
    decide +kernel
  have hbody : ['\x22'] = body :=
    (List.cons.inj (List.append_cancel_right (hscan.symm.trans htext))).2
  subst hbody
  have hdenotes : BodyDenotes '\x27' simpleEscapes ['\x22'] [0x22] :=
    .plain (by decide) (by decide) (by decide) .nil
  have hresult := hvalue (by decide +kernel) [0x22] "\x22" hdenotes (by decide +kernel)
  have hstart : (source.nthScan .full 1).start = ⟨8, 1, 9⟩ := by decide +kernel
  rw [if_pos List.mem_cons_self, hstart] at hresult
  exact ⟨hfirst, hresult⟩

end Lexer

end Lexis
