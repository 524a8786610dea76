import Lexis.Proofs.Lexer.Lookahead

/-!
# The sink of a lexer

While a scanner scans, it tells each fault to a sink, and the sink is all that a lexer learns of
them. It has a slot for one report: the first that the lexer gives up for stays there, and literals
between apostrophes that do not hold one character are passed on to the log (`Sink.report`). When
the scan is over, the lexer takes out what has come into the slot.

So a slot that is empty before a scan holds `Scan.fatal?` after it (`Sink.foldl_report_of_empty`),
and is empty again when the lexer goes on. `Lexer.withSink` is a lexer with such a sink, and
whatever it is asked, it answers what the lexer does that is told of all reports at once
(`SinkLexer.answers_withSink`).
-/

namespace Lexis

/-- What a scanner tells its reports to. -/
structure Sink where
  /-- The slot: the first report that the lexer is to give up for. -/
  first : Option Report
  /-- What has been told to the log, by the sink or by the lexer that owns it. -/
  log : Array Event
deriving DecidableEq, Repr

namespace Sink

/-- Takes in one report. -/
def report (s : Sink) (r : Report) : Sink :=
  if r.fault = .illegalCharLiteral then { s with log := s.log.push (.literalAccepted r.position) }
  else if s.first.isNone then { s with first := some r }
  else s

/-- Empties the slot and tells what was in it. -/
def take (s : Sink) : Option Report × Sink :=
  (s.first, { s with first := none })

/-- Report by report, the slot takes in the first of those that are not tolerated, unless there is
one in it, and the log is told of all others. -/
theorem foldl_report (s : Sink) (reports : List Report) :
    reports.foldl report s =
      ⟨s.first.or (reports.find? (·.fault != .illegalCharLiteral)),
        s.log ++ (reports.filter (·.fault == .illegalCharLiteral)).map
          fun r => Event.literalAccepted r.position⟩ := by
  induction reports generalizing s with
  | nil => simp
  | cons r reports ih =>
    rw [List.foldl_cons, ih, report]
    by_cases htolerated : r.fault = .illegalCharLiteral
    · simp [htolerated]
    · cases hfirst : s.first with
      | none => simp [htolerated]
      | some kept => simp [htolerated, hfirst]

/-- After a scan, a slot that was empty holds the report that the lexer gives up for. -/
theorem foldl_report_of_empty (log : Array Event) (scan : Scan) :
    scan.reports.foldl report ⟨none, log⟩ =
      ⟨scan.fatal?, log ++ scan.tolerated.map Event.literalAccepted⟩ := by
  rw [foldl_report, Option.none_or, Scan.tolerated, List.map_map]
  rfl

end Sink

/-- A lexer whose scanner tells its reports to a sink. -/
structure SinkLexer where
  scanner : Scanner
  sink : Sink
  /-- The name of the source, or nothing. -/
  file : String
  /-- The token that has been looked at and not been taken. -/
  lookahead : Option Token
  /-- The failure that the lexer gave up for. -/
  failure : Option Failure
deriving DecidableEq, Repr

/-- The lexer with a sink, whose slot is empty. -/
def Lexer.withSink (l : Lexer) : SinkLexer where
  scanner := l.scanner
  sink := ⟨none, l.log⟩
  file := l.file
  lookahead := l.lookahead
  failure := l.failure

namespace SinkLexer

/-- Tells the log of an event. -/
def tell (l : SinkLexer) (event : Event) : SinkLexer :=
  { l with sink := { l.sink with log := l.sink.log.push event } }

/-- Gives up. -/
def giveUp (l : SinkLexer) (position : Position) (cause : Cause) :
    Except Failure Token × SinkLexer :=
  let failure : Failure := ⟨⟨l.file, position⟩, cause⟩
  (.error failure, { l with failure := some failure })

/-- Scans one lexeme, takes out what the scanner has told the sink about it, and makes a token of
it. -/
def makeToken (l : SinkLexer) : Except Failure Token × SinkLexer :=
  match l.failure with
  | some failure => (.error failure, l)
  | none =>
    let (scan, scanner) := l.scanner.scan
    let (first, sink) := (scan.reports.foldl Sink.report l.sink).take
    let l := { l with scanner := scanner, sink := sink }
    match first with
    | some report => l.giveUp report.position (.scan report.fault)
    | none =>
      match cook scan.kind scan.text with
      | .error error => l.giveUp scan.start (.unquote error)
      | .ok (kind, value) =>
        let token : Token := ⟨kind.code, value, ⟨l.file, scan.start⟩⟩
        (.ok token, l.tell (.tokenMade token))

/-- Looks at the next token without taking it. -/
def peek (l : SinkLexer) : Except Failure Token × SinkLexer :=
  match l.lookahead with
  | some token => (.ok token, l)
  | none =>
    match l.makeToken with
    | (.ok token, l) => (.ok token, { l with lookahead := some token })
    | (.error failure, l) => (.error failure, l)

/-- Takes the next token. -/
def next (l : SinkLexer) : Except Failure Token × SinkLexer :=
  match l.lookahead with
  | some token => (.ok token, { l with lookahead := none })
  | none => l.makeToken

/-! ## One token -/

/-- With an empty slot, a lexer makes the token that it makes when it is told of all reports at
once, and its slot is empty afterwards. -/
theorem makeToken_withSink (l : Lexer) :
    l.withSink.makeToken = (l.makeToken.1, l.makeToken.2.withSink) := by
  unfold makeToken Lexer.makeToken
  cases hfailure : l.failure with
  | some failure => simp [Lexer.withSink, hfailure]
  | none =>
    simp only [Lexer.withSink, hfailure, Sink.foldl_report_of_empty, Sink.take]
    cases l.scanner.scan.1.fatal? with
    | some report => rfl
    | none =>
      cases cook l.scanner.scan.1.kind l.scanner.scan.1.text with
      | error error => rfl
      | ok cooked => rfl

theorem peek_withSink (l : Lexer) : l.withSink.peek = (l.peek.1, l.peek.2.withSink) := by
  unfold peek Lexer.peek
  have hmake := makeToken_withSink l
  cases hlookahead : l.lookahead with
  | some token => simp [Lexer.withSink, hlookahead]
  | none =>
    have hempty : l.withSink.lookahead = none := hlookahead
    rw [hempty, hmake]
    obtain ⟨result, after⟩ := l.makeToken
    cases result with
    | ok token => rfl
    | error failure => rfl

theorem next_withSink (l : Lexer) : l.withSink.next = (l.next.1, l.next.2.withSink) := by
  unfold next Lexer.next
  cases hlookahead : l.lookahead with
  | some token => simp [Lexer.withSink, hlookahead]
  | none =>
    have hempty : l.withSink.lookahead = none := hlookahead
    rw [hempty, makeToken_withSink]

/-! ## All tokens -/

/-- What is left to be scanned, and one for a token that has been looked at. -/
def remaining (l : SinkLexer) : Nat :=
  2 * l.scanner.cursor.rest.length + if l.lookahead.isSome then 1 else 0

/-- A report that has been left in the slot makes a lexer give up. -/
theorem makeToken_of_first {l : SinkLexer} {kept : Report} (hfirst : l.sink.first = some kept) :
    ∃ failure, l.makeToken.1 = .error failure := by
  unfold makeToken
  cases l.failure with
  | some failure => exact ⟨failure, rfl⟩
  | none =>
    simp only [Sink.foldl_report, Sink.take, hfirst, Option.some_or]
    exact ⟨_, rfl⟩

/-- Taking a token other than the end of the input gets a lexer ahead. -/
theorem remaining_next_lt {l l' : SinkLexer} {token : Token} (h : l.next = (.ok token, l'))
    (ht : token.isEndOfInput = false) : l'.remaining < l.remaining := by
  obtain ⟨scanner, ⟨first, log⟩, file, lookahead, failure⟩ := l
  cases first with
  | none =>
    have hnext := next_withSink ⟨scanner, file, lookahead, failure, log⟩
    obtain ⟨hresult, hafter⟩ := Prod.mk.inj (hnext.symm.trans h)
    have hlt := Lexer.remaining_next_lt (Prod.ext hresult rfl) ht
    rw [← hafter]
    exact hlt
  | some kept =>
    cases lookahead with
    | some looked =>
      cases h
      exact Nat.lt_succ_self _
    | none =>
      obtain ⟨failure', hfailure⟩ :=
        makeToken_of_first (l := ⟨scanner, ⟨some kept, log⟩, file, none, failure⟩) rfl
      cases hfailure.symm.trans (congrArg Prod.fst h)

/-- Takes all tokens up to the end of the input, and tells that end too. -/
def consumeAll (l : SinkLexer) : Except Failure (List Token) × SinkLexer :=
  match h : l.next with
  | (.error failure, l') => (.error failure, l')
  | (.ok token, l') =>
    if ht : token.isEndOfInput then (.ok [token], l')
    else
      have := remaining_next_lt h (Bool.eq_false_iff.2 ht)
      let (tokens, last) := consumeAll l'
      (tokens.map (token :: ·), last)
termination_by l.remaining

/-- Where a token is not the end of the input, all others are taken behind it. -/
theorem consumeAll_eq (l : SinkLexer) :
    l.consumeAll = match l.next with
      | (.error failure, l') => (.error failure, l')
      | (.ok token, l') =>
        if token.isEndOfInput then (.ok [token], l')
        else (l'.consumeAll.1.map (token :: ·), l'.consumeAll.2) := by
  rw [consumeAll]
  split
  · next failure l' h => rw [h]
  · next token l' h =>
    simp only [h]
    split
    · rfl
    · rfl

theorem consumeAll_withSink (l : Lexer) :
    l.withSink.consumeAll = (l.consumeAll.1, l.consumeAll.2.withSink) := by
  fun_induction Lexer.consumeAll l with
  | case1 l failure l' h => rw [consumeAll_eq, next_withSink, h]
  | case2 l token l' h hend =>
    rw [consumeAll_eq, next_withSink, h]
    exact if_pos hend
  | case3 l token l' h hend hlt tokens last hrest ih =>
    rw [hrest] at ih
    rw [consumeAll_eq, next_withSink, h]
    dsimp only
    rw [if_neg hend, ih]

/-! ## Requests -/

/-- The answer to a request, and the lexer after it. -/
def answer (l : SinkLexer) : Request → Answer × SinkLexer
  | .peek => (.one l.peek.1, l.peek.2)
  | .next => (.one l.next.1, l.next.2)
  | .consumeAll => (.all l.consumeAll.1, l.consumeAll.2)

/-- The answers to requests that are made one after the other. -/
def answers (l : SinkLexer) : List Request → List Answer
  | [] => []
  | request :: requests => (l.answer request).1 :: (l.answer request).2.answers requests

/-- The lexer after requests that are made one after the other. -/
def after (l : SinkLexer) : List Request → SinkLexer
  | [] => l
  | request :: requests => (l.answer request).2.after requests

theorem answer_withSink (l : Lexer) (request : Request) :
    l.withSink.answer request = ((l.answer request).1, (l.answer request).2.withSink) := by
  cases request with
  | peek => rw [answer, peek_withSink, Lexer.answer]
  | next => rw [answer, next_withSink, Lexer.answer]
  | consumeAll => rw [answer, consumeAll_withSink, Lexer.answer]

/-- Whatever is asked of a lexer, it makes no difference whether it is told of the reports of a scan
at once or finds the first that matters in a slot: the answers are the same, and so is what the
lexer has come to and what it has logged. The slot is empty again after every request. -/
theorem answers_withSink (l : Lexer) (requests : List Request) :
    l.withSink.answers requests = l.answers requests ∧
      l.withSink.after requests = (l.after requests).withSink ∧
      (l.withSink.after requests).sink.first = none := by
  induction requests generalizing l with
  | nil => exact ⟨rfl, rfl, rfl⟩
  | cons request requests ih =>
    obtain ⟨hanswers, hafter, hslot⟩ := ih (l.answer request).2
    simp only [answers, after, answer_withSink]
    exact ⟨congrArg _ hanswers, hafter, hslot⟩

/-- Of the two reports about this literal, the one about its escape is kept. -/
example : ((Lexer.ofString "'a\\q'").withSink.after [.peek]).failure =
    some ⟨⟨"", ⟨3, 1, 4⟩⟩, .scan .invalidEscape⟩ := by
  cbv

end SinkLexer

end Lexis
