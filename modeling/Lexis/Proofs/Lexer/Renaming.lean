import Lexis.Proofs.Lexer.Lookahead

/-!
# The name of a source

The name of a source has no say in what a lexer does: it only goes into the places that are told.
Two lexers that have come equally far into one source under different names (`Lexer.Renamed`) stay
so whatever is asked of them, and their answers differ in the name only (`Lexer.Renamed.answers`).
-/

namespace Lexis

/-! ## Telling another name -/

/-- The place, in a source of another name. -/
def Place.inFile (file : String) (place : Place) : Place :=
  { place with file := file }

/-- The token, from a source of another name. -/
def Token.inFile (file : String) (token : Token) : Token :=
  { token with place := token.place.inFile file }

/-- The failure, in a source of another name. -/
def Failure.inFile (file : String) (failure : Failure) : Failure :=
  { failure with place := failure.place.inFile file }

/-- The result, from a source of another name. -/
def resultInFile (file : String) (result : Except Failure Token) : Except Failure Token :=
  (result.map (Token.inFile file)).mapError (Failure.inFile file)

/-- The answer, from a source of another name. -/
def Answer.inFile (file : String) : Answer → Answer
  | .one result => .one (resultInFile file result)
  | .all results =>
    .all ((results.map (List.map (Token.inFile file))).mapError (Failure.inFile file))

/-- In a source of another name, a scan becomes the same token. -/
theorem Scan.toToken_inFile (scan : Scan) (file other : String) :
    scan.toToken other = resultInFile other (scan.toToken file) := by
  unfold toToken
  cases scan.fatal? with
  | some report => rfl
  | none =>
    dsimp only
    cases cook scan.kind scan.text with
    | error error => rfl
    | ok cooked => rfl

theorem failureOf?_inFile (file : String) (result : Except Failure Token) :
    failureOf? (resultInFile file result) = (failureOf? result).map (Failure.inFile file) := by
  cases result with
  | error failure => rfl
  | ok token => rfl

/-! ## Lexers under another name -/

namespace Lexer

/-- `l'` is what `l` would be if the name of the source were another, its log aside. -/
structure Renamed (file : String) (l l' : Lexer) : Prop where
  file_eq : l'.file = file
  scanner_eq : l'.scanner = l.scanner
  lookahead_eq : l'.lookahead = l.lookahead.map (Token.inFile file)
  failure_eq : l'.failure = l.failure.map (Failure.inFile file)

namespace Renamed

variable {file : String} {l l' : Lexer}

theorem ofSource (config : Config) (source : Source) (file other : String) :
    Renamed other (.ofSource config file source) (.ofSource config other source) where
  file_eq := rfl
  scanner_eq := rfl
  lookahead_eq := rfl
  failure_eq := rfl

theorem makeToken (h : Renamed file l l') :
    l'.makeToken.1 = resultInFile file l.makeToken.1 ∧
      Renamed file l.makeToken.2 l'.makeToken.2 := by
  have hrenamed := h.failure_eq
  cases hfailure : l.failure with
  | some failure =>
    rw [hfailure] at hrenamed
    rw [makeToken_of_failure hfailure, makeToken_of_failure hrenamed]
    exact ⟨rfl, h⟩
  | none =>
    rw [hfailure] at hrenamed
    have hmade := made_makeToken hfailure
    have hmade' := made_makeToken hrenamed
    have hresult : l'.makeToken.1 = resultInFile file l.makeToken.1 := by
      rw [hmade'.result_eq, hmade.result_eq, h.scanner_eq, h.file_eq, ← Scan.toToken_inFile]
    refine ⟨hresult, hmade'.file_eq.trans h.file_eq, ?_, ?_, ?_⟩
    · rw [hmade'.scanner_eq, hmade.scanner_eq, h.scanner_eq]
    · rw [hmade'.lookahead_eq, hmade.lookahead_eq, h.lookahead_eq]
    · rw [hmade'.failure_eq, hmade.failure_eq, hresult, failureOf?_inFile]

theorem next (h : Renamed file l l') :
    l'.next.1 = resultInFile file l.next.1 ∧ Renamed file l.next.2 l'.next.2 := by
  have hrenamed := h.lookahead_eq
  cases hlookahead : l.lookahead with
  | some token =>
    rw [hlookahead] at hrenamed
    rw [next_of_lookahead_eq_some hlookahead, next_of_lookahead_eq_some hrenamed]
    exact ⟨rfl, h.file_eq, h.scanner_eq, rfl, h.failure_eq⟩
  | none =>
    rw [hlookahead] at hrenamed
    rw [next_of_lookahead_eq_none hlookahead, next_of_lookahead_eq_none hrenamed]
    exact h.makeToken

theorem peek (h : Renamed file l l') :
    l'.peek.1 = resultInFile file l.peek.1 ∧ Renamed file l.peek.2 l'.peek.2 := by
  have hrenamed := h.lookahead_eq
  cases hlookahead : l.lookahead with
  | some token =>
    rw [hlookahead] at hrenamed
    rw [peek_of_lookahead_eq_some hlookahead, peek_of_lookahead_eq_some hrenamed]
    exact ⟨rfl, h⟩
  | none =>
    rw [hlookahead] at hrenamed
    obtain ⟨hresult, hafter⟩ := h.makeToken
    rw [peek_of_lookahead_eq_none hlookahead, peek_of_lookahead_eq_none hrenamed, hresult]
    refine ⟨rfl, hafter.file_eq, hafter.scanner_eq, ?_, hafter.failure_eq⟩
    cases l.makeToken.1 with
    | error failure => rfl
    | ok token => rfl

theorem consumeAll (h : Renamed file l l') :
    Answer.all l'.consumeAll.1 = (Answer.all l.consumeAll.1).inFile file ∧
      Renamed file l.consumeAll.2 l'.consumeAll.2 := by
  fun_induction Lexer.consumeAll l generalizing l' with
  | case1 l failure after hnext =>
    obtain ⟨hresult, hafter⟩ := h.next
    rw [hnext] at hresult hafter
    rw [consumeAll_of_error (Prod.ext hresult rfl)]
    exact ⟨rfl, hafter⟩
  | case2 l token after hnext hend =>
    obtain ⟨hresult, hafter⟩ := h.next
    rw [hnext] at hresult hafter
    rw [consumeAll_of_endOfInput (Prod.ext hresult rfl) hend]
    exact ⟨rfl, hafter⟩
  | case3 l token after hnext hend hlt tokens last hrest ih =>
    obtain ⟨hresult, hafter⟩ := h.next
    rw [hnext] at hresult hafter
    obtain ⟨htokens, hlast⟩ := ih hafter
    rw [hrest] at htokens hlast
    rw [consumeAll_of_token (Prod.ext hresult rfl) (Bool.eq_false_iff.2 hend)]
    refine ⟨?_, hlast⟩
    rw [Answer.all.inj htokens]
    cases tokens with
    | error failure => rfl
    | ok tokens => rfl

theorem answer (h : Renamed file l l') (request : Request) :
    (l'.answer request).1 = (l.answer request).1.inFile file ∧
      Renamed file (l.answer request).2 (l'.answer request).2 := by
  cases request with
  | peek => exact ⟨congrArg Answer.one h.peek.1, h.peek.2⟩
  | next => exact ⟨congrArg Answer.one h.next.1, h.next.2⟩
  | consumeAll => exact h.consumeAll

/-- Whatever is asked, the answers differ in the name only. -/
theorem answers (h : Renamed file l l') (requests : List Request) :
    l'.answers requests = (l.answers requests).map (Answer.inFile file) := by
  induction requests generalizing l l' with
  | nil => rfl
  | cons request requests ih =>
    obtain ⟨hanswer, hafter⟩ := h.answer request
    rw [Lexer.answers, Lexer.answers, List.map_cons, hanswer, ih hafter]

end Renamed

end Lexer

end Lexis
