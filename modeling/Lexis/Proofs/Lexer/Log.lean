import Lexis.Proofs.Lexer.Lookahead
import Lexis.Proofs.Scanner.Order

/-!
# What a lexer logs

A lexer logs when it scans, and at no other time. `Scan.entries` is what is logged of a scan,
and `Lexer.Logged` the invariant that holds whatever is asked of a lexer: the log tells of the scans
that were made, and the tokens made of these are the ones taken and the one that has been looked at.
So the log can be told from the results that were taken and the scans that were made
(`Lexer.log_of_requests`).
-/

namespace Lexis

/-- The entries that a lexer makes in its log for a scan, in a source of the given name. -/
def Scan.entries (scan : Scan) (file : String) : List Event :=
  scan.tolerated.map .literalAccepted ++ (scan.toToken file).toOption.toList.map .tokenMade

/-- The tokens of the first `n` of numbered results. -/
def tokensBefore (results : Nat → Except Failure Token) (n : Nat) : List Token :=
  (List.range n).filterMap fun k => (results k).toOption

theorem tokensBefore_succ (results : Nat → Except Failure Token) (n : Nat) :
    tokensBefore results (n + 1) = tokensBefore results n ++ (results n).toOption.toList := by
  rw [tokensBefore, List.range_succ, List.filterMap_append, tokensBefore,
    List.filterMap_eq_flatMap_toList _ [n], List.flatMap_singleton]

namespace Lexer

/-! ## One token -/

/-- Making a token logs the entries of the scan. -/
theorem log_makeToken {l : Lexer} (h : l.failure = none) :
    l.makeToken.2.log.toList = l.log.toList ++ l.scanner.scan.1.entries l.file := by
  unfold makeToken Scan.entries Scan.toToken
  rw [h]
  dsimp only
  cases hfatal : l.scanner.scan.1.fatal? with
  | some report => simp [giveUp, Except.toOption]
  | none =>
    cases hcook : cook l.scanner.scan.1.kind l.scanner.scan.1.text with
    | error error => simp [giveUp, Except.toOption]
    | ok cooked => simp [Except.toOption, List.append_assoc]

/-! ## The log and the scans -/

section Invariant

variable {config : Config} {file : String} {source : Source}

/-- What a lexer makes of the scans of a source, by number. -/
def ofScans (config : Config) (file : String) (source : Source) (n : Nat) :
    Except Failure Token :=
  (source.nthScan config n).toToken file

/-- The lexer has made `scanned` scans of a source and logged the entries of each. -/
structure Recorded (l : Lexer) (config : Config) (file : String) (source : Source) (scanned : Nat) :
    Prop where
  file_eq : l.file = file
  scanner_eq : l.scanner = source.scannerAfter config scanned
  log_eq : l.log.toList = .lexerCreated file source.size config.mode ::
    (List.range scanned).flatMap fun k => (source.nthScan config k).entries file

namespace Recorded

variable {l : Lexer} {scanned : Nat}

theorem ofSource (config : Config) (file : String) (source : Source) :
    (Lexer.ofSource config file source).Recorded config file source 0 where
  file_eq := rfl
  scanner_eq := rfl
  log_eq := rfl

/-- Nothing is logged of what is kept for later. -/
theorem keep (h : l.Recorded config file source scanned) (lookahead : Option Token) :
    { l with lookahead := lookahead }.Recorded config file source scanned where
  file_eq := h.file_eq
  scanner_eq := h.scanner_eq
  log_eq := h.log_eq

/-- A lexer that makes a token scans for it, unless it has given up. -/
theorem makeToken (h : l.Recorded config file source scanned) :
    ∃ more, l.makeToken.2.Recorded config file source more ∧
      tokensBefore (ofScans config file source) more =
        tokensBefore (ofScans config file source) scanned ++ l.makeToken.1.toOption.toList := by
  cases hfailure : l.failure with
  | some failure =>
    rw [makeToken_of_failure hfailure]
    exact ⟨scanned, h, (List.append_nil _).symm⟩
  | none =>
    have hmade := made_makeToken hfailure
    have hscan : l.scanner.scan.1 = source.nthScan config scanned := by
      rw [h.scanner_eq]
      rfl
    have hresult : l.makeToken.1 = ofScans config file source scanned := by
      rw [hmade.result_eq, hscan, h.file_eq]
      rfl
    refine ⟨scanned + 1, ⟨hmade.file_eq.trans h.file_eq, ?_, ?_⟩, ?_⟩
    · rw [hmade.scanner_eq, h.scanner_eq]
      rfl
    · rw [log_makeToken hfailure, h.log_eq, hscan, h.file_eq, List.range_succ,
        List.flatMap_append, List.flatMap_singleton, List.cons_append]
    · rw [tokensBefore_succ, hresult]

end Recorded

/-- The log tells of the scans that were made. The tokens made of them are those that were taken and
the one that has been looked at. -/
structure Logged (l : Lexer) (config : Config) (file : String) (source : Source)
    (taken scanned : Nat) : Prop extends l.Recorded config file source scanned where
  standsAt : l.StandsAt (Lexer.ofSource config file source).nth taken
  tokens_eq : tokensBefore (ofScans config file source) scanned =
    tokensBefore (Lexer.ofSource config file source).nth taken ++ l.lookahead.toList

namespace Logged

variable {l : Lexer} {taken scanned : Nat}

theorem peek (h : l.Logged config file source taken scanned) :
    ∃ more, l.peek.2.Logged config file source taken more := by
  have hstands := h.standsAt.peek
  cases hlookahead : l.lookahead with
  | some token =>
    rw [peek_of_lookahead_eq_some hlookahead]
    exact ⟨scanned, h⟩
  | none =>
    obtain ⟨more, hrecorded, htokens⟩ := h.toRecorded.makeToken
    rw [peek_of_lookahead_eq_none hlookahead] at hstands ⊢
    refine ⟨more, hrecorded.keep _, hstands, ?_⟩
    rw [htokens, h.tokens_eq, hlookahead, Option.toList_none, List.append_nil]

theorem next (h : l.Logged config file source taken scanned) :
    ∃ more, l.next.2.Logged config file source (taken + 1) more := by
  have hstands := h.standsAt.next
  have htaken := tokensBefore_succ (Lexer.ofSource config file source).nth taken
  rw [← h.standsAt.next_fst] at htaken
  cases hlookahead : l.lookahead with
  | some token =>
    rw [next_of_lookahead_eq_some hlookahead] at hstands htaken ⊢
    refine ⟨scanned, h.toRecorded.keep none, hstands, ?_⟩
    rw [h.tokens_eq, hlookahead, htaken, Option.toList_none, List.append_nil]
    rfl
  | none =>
    obtain ⟨more, hrecorded, htokens⟩ := h.toRecorded.makeToken
    have hempty := lookahead_next l
    rw [next_of_lookahead_eq_none hlookahead] at hstands htaken hempty ⊢
    refine ⟨more, hrecorded, hstands, ?_⟩
    rw [htokens, h.tokens_eq, hlookahead, htaken, hempty, Option.toList_none, List.append_nil,
      List.append_nil]

/-- Whatever is asked of a lexer, the log tells of its scans. -/
theorem preserved (config : Config) (file : String) (source : Source) :
    Preserved (Lexer.ofSource config file source).nth fun l taken =>
      ∃ scanned, l.Logged config file source taken scanned where
  next_fst := fun ⟨_, h⟩ => h.standsAt.next_fst
  peek := fun ⟨_, h⟩ => h.peek
  next := fun ⟨_, h⟩ => h.next

end Logged

/-! ## The two kinds of entries -/

/-- Of entries that are all of one level, all are kept or none. -/
theorem filter_level {α : Type} {f : α → Event} (level : Level) (h : ∀ a, (f a).level = level)
    (entries : List α) (kept : Level) :
    (entries.map f).filter (·.level == kept) = if level = kept then entries.map f else [] := by
  split
  · next heq =>
    rw [List.filter_eq_self]
    intro event hevent
    obtain ⟨a, -, rfl⟩ := List.mem_map.1 hevent
    rw [h, heq, beq_self_eq_true]
  · next hne =>
    rw [List.filter_eq_nil_iff]
    intro event hevent
    obtain ⟨a, -, rfl⟩ := List.mem_map.1 hevent
    rw [h, beq_iff_eq]
    exact hne

namespace Recorded

variable {l : Lexer} {scanned : Nat}

/-- The tokens that are logged are those that were made. -/
theorem filter_trace (h : l.Recorded config file source scanned) :
    l.log.toList.filter (·.level == .trace) =
      (tokensBefore (ofScans config file source) scanned).map .tokenMade := by
  have hcreated : ¬ ((Event.lexerCreated file source.size config.mode).level == .trace) = true :=
    Bool.false_ne_true
  have hentries (scan : Scan) : (scan.entries file).filter (·.level == .trace) =
      (scan.toToken file).toOption.toList.map .tokenMade := by
    rw [Scan.entries, List.filter_append, filter_level .debug fun _ => rfl,
      filter_level .trace fun _ => rfl, if_neg (by decide), if_pos rfl, List.nil_append]
  rw [h.log_eq, List.filter_cons, if_neg hcreated, List.filter_flatMap, tokensBefore,
    List.filterMap_eq_flatMap_toList, List.map_flatMap]
  simp only [hentries]
  rfl

/-- Besides tokens, the literals between apostrophes are logged of which the scanner reports that
they do not hold one character. -/
theorem filter_debug (h : l.Recorded config file source scanned) :
    l.log.toList.filter (·.level == .debug) = .lexerCreated file source.size config.mode ::
      ((source.reportsBefore config scanned).filter (·.fault == .illegalCharLiteral)).map
        fun report => .literalAccepted report.position := by
  have hentries (scan : Scan) : (scan.entries file).filter (·.level == .debug) =
      (scan.reports.filter (·.fault == .illegalCharLiteral)).map
        fun report => .literalAccepted report.position := by
    rw [Scan.entries, List.filter_append, filter_level .debug fun _ => rfl,
      filter_level .trace fun _ => rfl, if_pos rfl, if_neg (by decide), List.append_nil,
      Scan.tolerated, List.map_map]
    rfl
  rw [h.log_eq, List.filter_cons_of_pos (by rfl), List.filter_flatMap, Source.reportsBefore,
    List.filter_flatMap, List.map_flatMap]
  simp only [hentries]

end Recorded

end Invariant

/-! ## Requests that log nothing -/

/-- A lexer that has given up has at most a token to hand out that was looked at before. -/
theorem next_of_givenUp {l : Lexer} (h : l.failure ≠ none) :
    l.next.2.log = l.log ∧ l.next.2.failure ≠ none := by
  cases hlookahead : l.lookahead with
  | some token =>
    rw [next_of_lookahead_eq_some hlookahead]
    exact ⟨rfl, h⟩
  | none =>
    obtain ⟨failure, hfailure⟩ := Option.ne_none_iff_exists'.1 h
    rw [next_of_failure hlookahead hfailure]
    exact ⟨rfl, h⟩

theorem peek_of_givenUp {l : Lexer} (h : l.failure ≠ none) :
    l.peek.2.log = l.log ∧ l.peek.2.failure ≠ none := by
  cases hlookahead : l.lookahead with
  | some token =>
    rw [peek_of_lookahead_eq_some hlookahead]
    exact ⟨rfl, h⟩
  | none =>
    obtain ⟨failure, hfailure⟩ := Option.ne_none_iff_exists'.1 h
    rw [peek_of_lookahead_eq_none hlookahead, makeToken_of_failure hfailure]
    exact ⟨rfl, h⟩

theorem consumeAll_of_givenUp {l : Lexer} (h : l.failure ≠ none) :
    l.consumeAll.2.log = l.log ∧ l.consumeAll.2.failure ≠ none := by
  fun_induction consumeAll l with
  | case1 l failure l' hnext =>
    have hafter := next_of_givenUp h
    rwa [hnext] at hafter
  | case2 l token l' hnext hend =>
    have hafter := next_of_givenUp h
    rwa [hnext] at hafter
  | case3 l token l' hnext hend hlt tokens last hrest ih =>
    have hafter := next_of_givenUp h
    rw [hnext] at hafter
    obtain ⟨hlog, hfailure⟩ := ih hafter.2
    rw [hrest] at hlog hfailure
    exact ⟨hlog.trans hafter.1, hfailure⟩

theorem after_of_givenUp {l : Lexer} (h : l.failure ≠ none) (requests : List Request) :
    (l.after requests).log = l.log := by
  induction requests generalizing l with
  | nil => rfl
  | cons request requests ih =>
    have hanswer : (l.answer request).2.log = l.log ∧ (l.answer request).2.failure ≠ none := by
      cases request with
      | peek => exact peek_of_givenUp h
      | next => exact next_of_givenUp h
      | consumeAll => exact consumeAll_of_givenUp h
    exact (ih hanswer.2).trans hanswer.1

/-- Each token is logged once, when it is scanned: those that were taken, in their order, and then
the one that has been looked at. Each literal is logged of which the scanner reports that it does
not hold one character, also where no token is made of it. Nothing is logged when a token that has
been looked at is looked at again or taken, nor after a failure. -/
theorem log_of_requests (config : Config) (file : String) (source : Source)
    (requests : List Request) :
    let first := ofSource config file source
    let l := first.after requests
    (∃ taken scanned,
      Answered first.nth 0 requests (first.answers requests) taken ∧
      l.scanner = source.scannerAfter config scanned ∧
      l.log.toList.filter (·.level == .trace) =
        (tokensBefore first.nth taken ++ l.lookahead.toList).map (fun token =>
          ⟨.trace, "token",
            [("kind", Kind.describe token.kind), ("value", token.value),
              ("offset", toString token.place.position.offset)]⟩) ∧
      l.log.toList.filter (·.level == .debug) =
        ⟨.debug, "creating text scanner lexer",
          [("filename", file), ("len", toString source.size), ("mode", config.mode.render)]⟩ ::
        ((source.reportsBefore config scanned).filter (·.fault == .illegalCharLiteral)).map
          fun report => ⟨.debug, "accepting multi-character single-quoted literal",
            [("offset", toString report.position.offset), ("line", toString report.position.line),
              ("column", toString report.position.column)]⟩) ∧
    (l.lookahead ≠ none → l.peek.2.log = l.log ∧ l.next.2.log = l.log) ∧
    (l.failure ≠ none → ∀ more, (l.after more).log = l.log) := by
  intro first l
  refine ⟨?_, ?_, after_of_givenUp⟩
  · have hstart : first.Logged config file source 0 0 :=
      ⟨Recorded.ofSource config file source, fun n => congrArg first.nth (Nat.zero_add n).symm, rfl⟩
    obtain ⟨taken, hanswered, scanned, hlogged⟩ :=
      (Logged.preserved config file source).answers ⟨0, hstart⟩ requests
    have htokens := congrArg (List.map Event.tokenMade) hlogged.tokens_eq
    exact ⟨taken, scanned, hanswered, hlogged.scanner_eq, hlogged.filter_trace.trans htokens,
      hlogged.filter_debug⟩
  · intro hlookahead
    obtain ⟨token, htoken⟩ := Option.ne_none_iff_exists'.1 hlookahead
    rw [peek_of_lookahead_eq_some htoken, next_of_lookahead_eq_some htoken]
    exact ⟨rfl, rfl⟩

/-- A token that is looked at twice and then taken is logged once. -/
example : ((ofString "'ab'").after [.peek, .peek, .next]).log.toList.map Event.level =
    [.debug, .debug, .trace] := by
  cbv

end Lexer

end Lexis
