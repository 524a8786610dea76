import Lexis.Lexer
import Lexis.Proofs.Scanner.Step

/-!
# From scans to tokens

`Scan.toToken` is what a lexer makes of a scan. A lexer that has not given up scans and makes that
of it (`Lexer.made_makeToken`); one that has given up answers with its failure
(`Lexer.makeToken_of_failure`). So all tokens of a source are made of all its scans, up to the first
of which none can be made (`Lexer.consumeAll_eq_mapM`).
-/

namespace Lexis

/-- What a lexer makes of a scan in a source of the given name. -/
def Scan.toToken (scan : Scan) (file : String) : Except Failure Token :=
  match scan.fatal? with
  | some report => .error ⟨⟨file, report.position⟩, .scan report.fault⟩
  | none =>
    match cook scan.kind scan.text with
    | .error error => .error ⟨⟨file, scan.start⟩, .unquote error⟩
    | .ok (kind, value) => .ok ⟨kind.code, value, ⟨file, scan.start⟩⟩

/-- The failure that a result tells of. -/
def failureOf? : Except Failure Token → Option Failure
  | .ok _ => none
  | .error failure => some failure

/-! ## The end of the input -/

theorem Kind.code_eq_endOfInput_iff {kind : Kind} :
    kind.code = Kind.endOfInput.code ↔ kind = .endOfInput := by
  cases kind with
  | rune c => simp [code]
  | _ => decide

/-- Cooking makes no end of the input and hides none. -/
theorem cook_endOfInput_iff {kind kind' : Kind} {text : List Char} {value : String}
    (h : cook kind text = .ok (kind', value)) : kind' = .endOfInput ↔ kind = .endOfInput := by
  cases kind with
  | char =>
    simp only [cook] at h
    cases hvalue : unquote ('\x22' :: stripDelimiters text ++ ['\x22']) with
    | error error =>
      rw [hvalue] at h
      cases h
    | ok value' =>
      rw [hvalue] at h
      cases h
      split
      · simp
      · simp
  | string =>
    simp only [cook] at h
    cases hvalue : unquote text with
    | error error =>
      rw [hvalue] at h
      cases h
    | ok value' =>
      rw [hvalue] at h
      cases h
      simp
  | _ =>
    cases h
    simp

/-- The token of a scan tells the end of the input where the scan does. -/
theorem Scan.isEndOfInput_iff {scan : Scan} {file : String} {token : Token}
    (h : scan.toToken file = .ok token) :
    token.isEndOfInput = true ↔ scan.kind = .endOfInput := by
  unfold toToken at h
  split at h
  · cases h
  split at h
  · cases h
  · next kind value hcook =>
    cases h
    rw [Token.isEndOfInput, beq_iff_eq, Kind.code_eq_endOfInput_iff]
    exact cook_endOfInput_iff hcook

/-- The token of a scan that tells the end of the input. -/
theorem Scan.toToken_of_endOfInput {scan : Scan} {file : String} {token : Token}
    (hkind : scan.kind = .endOfInput) (h : scan.toToken file = .ok token) :
    token = ⟨Kind.endOfInput.code, String.ofList scan.text, ⟨file, scan.start⟩⟩ := by
  unfold toToken at h
  split at h
  · cases h
  · rw [hkind, Lexer.cook_endOfInput] at h
    cases h
    rfl

/-- A scan that has only reports to tolerate becomes a token, if at all. -/
theorem Scan.fault_eq_of_toToken {scan : Scan} {file : String} {token : Token}
    (h : scan.toToken file = .ok token) {report : Report} (hreport : report ∈ scan.reports) :
    report.fault = .illegalCharLiteral := by
  unfold toToken at h
  split at h
  · cases h
  · next hfatal =>
    rw [fatal?, List.find?_eq_none] at hfatal
    simpa using hfatal report hreport

namespace Lexer

/-! ## One token -/

/-- A lexer that has given up answers with its failure. -/
theorem makeToken_of_failure {l : Lexer} {failure : Failure} (h : l.failure = some failure) :
    l.makeToken = (.error failure, l) := by
  unfold makeToken
  rw [h]

/-- What it is for `l` to make a token, or to fail to, and to become `after` by that. -/
structure Made (l : Lexer) (result : Except Failure Token) (after : Lexer) : Prop where
  result_eq : result = l.scanner.scan.1.toToken l.file
  scanner_eq : after.scanner = l.scanner.scan.2
  file_eq : after.file = l.file
  lookahead_eq : after.lookahead = l.lookahead
  failure_eq : after.failure = failureOf? result

theorem made_makeToken {l : Lexer} (h : l.failure = none) :
    l.Made l.makeToken.1 l.makeToken.2 := by
  unfold makeToken
  rw [h]
  dsimp only
  -- a report that is not tolerated goes before a literal without a value
  cases hfatal : l.scanner.scan.1.fatal? with
  | some report =>
    constructor
    · simp [Scan.toToken, hfatal, giveUp]
    · rfl
    · rfl
    · rfl
    · rfl
  | none =>
    cases hcook : cook l.scanner.scan.1.kind l.scanner.scan.1.text with
    | error error =>
      constructor
      · simp [Scan.toToken, hfatal, hcook, giveUp]
      · rfl
      · rfl
      · rfl
      · rfl
    | ok cooked =>
      constructor
      · simp [Scan.toToken, hfatal, hcook]
      · rfl
      · rfl
      · rfl
      · rfl

/-- Without a token looked at, the next one is made. -/
theorem next_of_lookahead_eq_none {l : Lexer} (h : l.lookahead = none) : l.next = l.makeToken := by
  unfold next
  rw [h]

/-! ## All tokens -/

theorem consumeAll_of_error {l l' : Lexer} {failure : Failure}
    (h : l.next = (.error failure, l')) : l.consumeAll = (.error failure, l') := by
  unfold consumeAll
  split
  · next hnext =>
    rw [h] at hnext
    cases hnext
    rfl
  · next hnext =>
    rw [h] at hnext
    cases hnext

theorem consumeAll_of_endOfInput {l l' : Lexer} {token : Token} (h : l.next = (.ok token, l'))
    (htoken : token.isEndOfInput = true) : l.consumeAll = (.ok [token], l') := by
  unfold consumeAll
  split
  · next hnext =>
    rw [h] at hnext
    cases hnext
  · next hnext =>
    rw [h] at hnext
    cases hnext
    rw [dif_pos htoken]

theorem consumeAll_of_token {l l' : Lexer} {token : Token} (h : l.next = (.ok token, l'))
    (htoken : token.isEndOfInput = false) :
    l.consumeAll = (l'.consumeAll.1.map (token :: ·), l'.consumeAll.2) := by
  rw [consumeAll]
  split
  · next hnext =>
    rw [h] at hnext
    cases hnext
  · next hnext =>
    rw [h] at hnext
    cases hnext
    rw [dif_neg (by simp [htoken])]

/-- All tokens of a source are made of all its scans, and the first scan of which none can be made
is where a lexer fails. -/
theorem consumeAll_eq_mapM (l : Lexer) (hlookahead : l.lookahead = none)
    (hfailure : l.failure = none) :
    l.consumeAll.1 = l.scanner.scanAll.1.mapM (·.toToken l.file) := by
  have hmade := made_makeToken hfailure
  have hnext : l.next = (l.makeToken.1, l.makeToken.2) := next_of_lookahead_eq_none hlookahead
  rw [hmade.result_eq] at hnext
  cases htoken : l.scanner.scan.1.toToken l.file with
  | error failure =>
    rw [htoken] at hnext
    -- whatever would be scanned after it, the first scan fails
    rw [consumeAll_of_error hnext]
    by_cases hkind : l.scanner.scan.1.kind = .endOfInput
    · rw [Scanner.scanAll_of_endOfInput hkind, List.mapM_cons, htoken]
      rfl
    · rw [Scanner.scanAll_of_lexeme hkind, List.mapM_cons, htoken]
      rfl
  | ok token =>
    rw [htoken] at hnext
    have hend := Scan.isEndOfInput_iff htoken
    by_cases hkind : l.scanner.scan.1.kind = .endOfInput
    · rw [consumeAll_of_endOfInput hnext (hend.2 hkind), Scanner.scanAll_of_endOfInput hkind,
        List.mapM_cons, htoken]
      rfl
    · have hlt : l.makeToken.2.scanner.cursor.rest.length < l.scanner.cursor.rest.length := by
        rw [hmade.scanner_eq]
        exact Scanner.length_scan_rest_lt l.scanner hkind
      have hafter : l.makeToken.2.failure = none := by
        rw [hmade.failure_eq, hmade.result_eq, htoken]
        rfl
      have ih := consumeAll_eq_mapM l.makeToken.2 (hmade.lookahead_eq.trans hlookahead) hafter
      rw [consumeAll_of_token hnext (Bool.eq_false_iff.2 (mt hend.1 hkind)),
        Scanner.scanAll_of_lexeme hkind, List.mapM_cons, htoken, ih, hmade.scanner_eq,
        hmade.file_eq]
      cases l.scanner.scan.2.scanAll.1.mapM (·.toToken l.file) with
      | error failure => rfl
      | ok tokens => rfl
termination_by l.scanner.cursor.rest.length

private theorem exists_ok_of_mapM {f : Scan → Except Failure Token} {scans : List Scan}
    {tokens : List Token} (h : scans.mapM f = .ok tokens) {scan : Scan} (hscan : scan ∈ scans) :
    ∃ token, f scan = .ok token := by
  induction scans generalizing tokens with
  | nil => cases hscan
  | cons first scans ih =>
    rw [List.mapM_cons] at h
    cases hfirst : f first with
    | error failure =>
      rw [hfirst] at h
      cases h
    | ok token =>
      rw [hfirst] at h
      cases hrest : scans.mapM f with
      | error failure =>
        rw [hrest] at h
        cases h
      | ok rest =>
        rcases List.mem_cons.1 hscan with rfl | hmem
        · exact ⟨token, hfirst⟩
        · exact ih hrest hmem

/-- Where all tokens were taken, nothing was reported on the way but literals between apostrophes
that do not hold one character. -/
theorem fault_eq_of_consumeAll {l : Lexer} {tokens : List Token} (hlookahead : l.lookahead = none)
    (hfailure : l.failure = none) (h : l.consumeAll.1 = .ok tokens) :
    ∀ report ∈ l.scanner.scanAll.1.flatMap Scan.reports, report.fault = .illegalCharLiteral := by
  intro report hreport
  rw [consumeAll_eq_mapM l hlookahead hfailure] at h
  obtain ⟨scan, hscan, hmem⟩ := List.mem_flatMap.1 hreport
  obtain ⟨token, htoken⟩ := exists_ok_of_mapM h hscan
  exact Scan.fault_eq_of_toToken htoken hmem

end Lexer

end Lexis
