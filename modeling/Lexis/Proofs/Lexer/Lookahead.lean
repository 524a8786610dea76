import Mathlib.Logic.Function.Iterate
import Lexis.Proofs.Lexer.Tokens

/-!
# Looking ahead

The results that a lexer gives when they are taken one by one are numbered (`Lexer.nth`). To look at
a result before taking it, or to take all that are left at once, changes nothing about them: a lexer
stands at one of its results (`Lexer.StandsAt`), shows that one however often it is looked at, and
goes on from there. A failure is the last thing that a lexer has to tell, and so is the end of the
input; each is told again and again.
-/

namespace Lexis

/-- What a lexer can be asked for. -/
inductive Request where
  | peek
  | next
  | consumeAll
deriving DecidableEq, Repr

/-- What a lexer answers. -/
inductive Answer where
  /-- The answer to a request for the next result, whether it is taken or looked at. -/
  | one (result : Except Failure Token)
  /-- The answer to a request for all results. -/
  | all (results : Except Failure (List Token))

namespace Lexer

/-! ## Requests and numbered results -/

/-- The answer to a request, and the lexer after it. -/
def answer (l : Lexer) : Request → Answer × Lexer
  | .peek => (.one l.peek.1, l.peek.2)
  | .next => (.one l.next.1, l.next.2)
  | .consumeAll => (.all l.consumeAll.1, l.consumeAll.2)

/-- The answers to requests that are made one after the other. -/
def answers (l : Lexer) : List Request → List Answer
  | [] => []
  | request :: requests => (l.answer request).1 :: (l.answer request).2.answers requests

/-- The lexer after requests that are made one after the other. -/
def after (l : Lexer) : List Request → Lexer
  | [] => l
  | request :: requests => (l.answer request).2.after requests

/-- The lexer after a number of results have been taken. -/
def taken (l : Lexer) (n : Nat) : Lexer :=
  (fun l : Lexer => l.next.2)^[n] l

/-- The result that comes after `n` others when results are taken one by one. -/
def nth (l : Lexer) (n : Nat) : Except Failure Token :=
  (l.taken n).next.1

theorem nth_zero (l : Lexer) : l.nth 0 = l.next.1 := rfl

theorem nth_succ (l : Lexer) (n : Nat) : l.nth (n + 1) = l.next.2.nth n := rfl

theorem nth_taken (l : Lexer) (m n : Nat) : (l.taken m).nth n = l.nth (m + n) := by
  rw [nth, nth, taken, taken, taken, ← Function.iterate_add_apply, Nat.add_comm]

end Lexer

/-- What taking everything comes to, from result number `i` on: all tokens through the first that
tells the end of the input, or the first failure. The last number is that of the next result. -/
inductive Drained (results : Nat → Except Failure Token) :
    Nat → Except Failure (List Token) → Nat → Prop
  | failure {i : Nat} {failure : Failure} (hresult : results i = .error failure) :
      Drained results i (.error failure) (i + 1)
  | endOfInput {i : Nat} {token : Token} (hresult : results i = .ok token)
      (hend : token.isEndOfInput = true) : Drained results i (.ok [token]) (i + 1)
  | token {i j : Nat} {token : Token} {rest : Except Failure (List Token)}
      (hresult : results i = .ok token) (hend : token.isEndOfInput = false)
      (hrest : Drained results (i + 1) rest j) : Drained results i (rest.map (token :: ·)) j

/-- How requests are answered from numbered results, from result number `i` on. Looking at a result
does not take it; everything else takes the results in their order. The last number is that of the
next result. -/
inductive Answered (results : Nat → Except Failure Token) :
    Nat → List Request → List Answer → Nat → Prop
  | nil {i : Nat} : Answered results i [] [] i
  | peek {i j : Nat} {requests : List Request} {answers : List Answer}
      (hrest : Answered results i requests answers j) :
      Answered results i (.peek :: requests) (.one (results i) :: answers) j
  | next {i j : Nat} {requests : List Request} {answers : List Answer}
      (hrest : Answered results (i + 1) requests answers j) :
      Answered results i (.next :: requests) (.one (results i) :: answers) j
  | consumeAll {i j k : Nat} {outcome : Except Failure (List Token)} {requests : List Request}
      {answers : List Answer} (hdrained : Drained results i outcome j)
      (hrest : Answered results j requests answers k) :
      Answered results i (.consumeAll :: requests) (.all outcome :: answers) k

namespace Lexer

/-! ## Failures -/

/-- Without a token looked at, a lexer that has given up answers with its failure. -/
theorem next_of_failure {l : Lexer} {failure : Failure} (hlookahead : l.lookahead = none)
    (hfailure : l.failure = some failure) : l.next = (.error failure, l) := by
  rw [next_of_lookahead_eq_none hlookahead, makeToken_of_failure hfailure]

theorem nth_of_failure {l : Lexer} {failure : Failure} (hlookahead : l.lookahead = none)
    (hfailure : l.failure = some failure) (n : Nat) : l.nth n = .error failure := by
  have hnext := next_of_failure hlookahead hfailure
  induction n with
  | zero => rw [nth_zero, hnext]
  | succ n ih => rw [nth_succ, hnext, ih]

/-- Taking a result leaves nothing that has been looked at. -/
theorem lookahead_next (l : Lexer) : l.next.2.lookahead = none := by
  cases hlookahead : l.lookahead with
  | some token =>
    unfold next
    rw [hlookahead]
  | none =>
    rw [next_of_lookahead_eq_none hlookahead]
    cases hfailure : l.failure with
    | some failure => rw [makeToken_of_failure hfailure, hlookahead]
    | none => rw [(made_makeToken hfailure).lookahead_eq, hlookahead]

/-- A lexer that fails has given up. -/
theorem failure_next {l : Lexer} {failure : Failure} (h : l.next.1 = .error failure) :
    l.next.2.failure = some failure := by
  cases hlookahead : l.lookahead with
  | some token =>
    unfold next at h
    rw [hlookahead] at h
    cases h
  | none =>
    rw [next_of_lookahead_eq_none hlookahead] at h ⊢
    cases hfailure : l.failure with
    | some failure' =>
      rw [makeToken_of_failure hfailure] at h ⊢
      cases h
      exact hfailure
    | none =>
      rw [(made_makeToken hfailure).failure_eq, h]
      rfl

/-- After a failure there is nothing else. -/
theorem nth_eq_of_nth_eq_error {l : Lexer} {i j : Nat} {failure : Failure}
    (h : l.nth i = .error failure) (hij : i ≤ j) : l.nth j = .error failure := by
  obtain ⟨k, rfl⟩ := Nat.exists_eq_add_of_le hij
  rw [← nth_taken]
  cases k with
  | zero => exact h
  | succ k =>
    rw [nth_succ]
    exact nth_of_failure (lookahead_next _) (failure_next h) k

/-! ## What has been looked at -/

/-- Looking at a result makes it, and keeps it if it is a token. -/
theorem peek_of_lookahead_eq_none {l : Lexer} (h : l.lookahead = none) :
    l.peek = (l.makeToken.1, { l.makeToken.2 with lookahead := l.makeToken.1.toOption }) := by
  have hempty := lookahead_next l
  rw [next_of_lookahead_eq_none h] at hempty
  unfold peek
  rw [h]
  dsimp only
  split
  · next token l' hmake =>
    rw [hmake]
    rfl
  · next failure l' hmake =>
    rw [hmake] at hempty ⊢
    show (Except.error failure, l') = (Except.error failure, { l' with lookahead := none })
    rw [← hempty]

theorem next_of_lookahead_eq_some {l : Lexer} {token : Token} (h : l.lookahead = some token) :
    l.next = (.ok token, { l with lookahead := none }) := by
  unfold next
  rw [h]

theorem peek_of_lookahead_eq_some {l : Lexer} {token : Token} (h : l.lookahead = some token) :
    l.peek = (.ok token, l) := by
  unfold peek
  rw [h]

/-! ## The end of the input -/

/-- Everything has been scanned, without a failure, and no token has been looked at. -/
structure AtEnd (l : Lexer) : Prop where
  lookahead_eq : l.lookahead = none
  failure_eq : l.failure = none
  rest_eq : l.scanner.cursor.rest = []

/-- The token that tells the end of the input where the lexer stands. -/
def endToken (l : Lexer) : Token :=
  ⟨Kind.endOfInput.code, "", ⟨l.file, l.scanner.position⟩⟩

/-- At the end the lexer tells so and stays there. -/
theorem AtEnd.next {l : Lexer} (h : l.AtEnd) :
    l.next.1 = .ok l.endToken ∧ l.next.2.AtEnd ∧ l.next.2.endToken = l.endToken := by
  have hmade := made_makeToken h.failure_eq
  have hscan := Scanner.scan_of_rest_eq_nil h.rest_eq
  have hresult : l.makeToken.1 = .ok l.endToken := by
    rw [hmade.result_eq, hscan]
    rfl
  have hscanner := hmade.scanner_eq
  rw [hscan] at hscanner
  rw [next_of_lookahead_eq_none h.lookahead_eq]
  refine ⟨hresult, ⟨?_, ?_, ?_⟩, ?_⟩
  · rw [hmade.lookahead_eq, h.lookahead_eq]
  · rw [hmade.failure_eq, hresult]
    rfl
  · rw [hscanner]
    exact h.rest_eq
  · rw [endToken, hscanner, hmade.file_eq]
    rfl

theorem AtEnd.nth {l : Lexer} (h : l.AtEnd) (n : Nat) : l.nth n = .ok l.endToken := by
  induction n generalizing l with
  | zero => exact h.next.1
  | succ n ih =>
    obtain ⟨-, hafter, htoken⟩ := h.next
    rw [nth_succ, ih hafter, htoken]

/-- A lexer that has told the end of the input is there. -/
theorem atEnd_next {l : Lexer} {token : Token} (hlookahead : l.lookahead = none)
    (h : l.next.1 = .ok token) (hend : token.isEndOfInput = true) :
    l.next.2.AtEnd ∧ token = l.next.2.endToken := by
  have hnext := next_of_lookahead_eq_none hlookahead
  -- a lexer that had given up would have answered with its failure
  have hfailure : l.failure = none := by
    by_contra hne
    obtain ⟨failure, hsome⟩ := Option.ne_none_iff_exists'.1 hne
    rw [hnext, makeToken_of_failure hsome] at h
    cases h
  have hmade := made_makeToken hfailure
  rw [hnext] at h ⊢
  have htoken : l.scanner.scan.1.toToken l.file = .ok token := by
    rw [← hmade.result_eq, h]
  have hkind := (Scan.isEndOfInput_iff htoken).1 hend
  obtain ⟨skipped, taken, hstep⟩ := l.scanner.exists_step
  obtain ⟨hrest, htext, hstart⟩ := hstep.atEnd hkind
  refine ⟨⟨?_, ?_, ?_⟩, ?_⟩
  · rw [hmade.lookahead_eq, hlookahead]
  · rw [hmade.failure_eq, h]
    rfl
  · rw [hmade.scanner_eq, hrest]
  · rw [Scan.toToken_of_endOfInput hkind htoken, htext, hstart, endToken, hmade.scanner_eq,
      hmade.file_eq]

/-- After the end of the input there is nothing else. -/
theorem nth_eq_of_isEndOfInput {l : Lexer} {i j : Nat} {token : Token}
    (hlookahead : l.lookahead = none) (h : l.nth i = .ok token)
    (hend : token.isEndOfInput = true) (hij : i ≤ j) :
    token.value = "" ∧ l.nth j = .ok token := by
  -- taking results never leaves one that was looked at
  have hi : (l.taken i).lookahead = none := by
    cases i with
    | zero => exact hlookahead
    | succ i =>
      rw [taken, Function.iterate_succ_apply']
      exact lookahead_next _
  obtain ⟨hatEnd, htoken⟩ := atEnd_next hi h hend
  refine ⟨?_, ?_⟩
  · rw [htoken]
    rfl
  · obtain ⟨k, rfl⟩ := Nat.exists_eq_add_of_le hij
    rw [← nth_taken]
    cases k with
    | zero => exact h
    | succ k => rw [nth_succ, hatEnd.nth, htoken]

/-! ## Requests -/

/-- Looking at a result shows the one that is taken next. -/
theorem peek_fst (l : Lexer) : l.peek.1 = l.next.1 := by
  cases hlookahead : l.lookahead with
  | some token =>
    rw [peek_of_lookahead_eq_some hlookahead, next_of_lookahead_eq_some hlookahead]
  | none => rw [peek_of_lookahead_eq_none hlookahead, next_of_lookahead_eq_none hlookahead]

/-- Looking at a result and then taking it is taking it. -/
theorem next_peek (l : Lexer) : l.peek.2.next = l.next := by
  cases hlookahead : l.lookahead with
  | some token => rw [peek_of_lookahead_eq_some hlookahead]
  | none =>
    have hempty := lookahead_next l
    have hgivenUp := @failure_next l
    rw [next_of_lookahead_eq_none hlookahead] at hempty hgivenUp
    rw [peek_of_lookahead_eq_none hlookahead, next_of_lookahead_eq_none hlookahead]
    have hmade : l.makeToken = (l.makeToken.1, { l.makeToken.2 with lookahead := none }) := by
      rw [← hempty]
    cases hresult : l.makeToken.1 with
    | ok token =>
      -- the slot that is filled here is empty again when the token has been taken
      rw [hresult] at hmade
      rw [hmade]
      exact next_of_lookahead_eq_some rfl
    | error failure =>
      -- nothing is kept of a failure but that the lexer has given up
      rw [hresult] at hmade
      rw [hmade]
      exact next_of_failure rfl (hgivenUp hresult)

/-- The lexer stands at result number `i`: what it gives from now on are the results from there
on. -/
def StandsAt (l : Lexer) (results : Nat → Except Failure Token) (i : Nat) : Prop :=
  ∀ n, l.nth n = results (i + n)

namespace StandsAt

variable {l : Lexer} {results : Nat → Except Failure Token} {i : Nat}

theorem next_fst (h : l.StandsAt results i) : l.next.1 = results i :=
  h 0

theorem next (h : l.StandsAt results i) : l.next.2.StandsAt results (i + 1) := by
  intro n
  rw [← nth_succ, h (n + 1)]
  congr 1
  omega

theorem peek (h : l.StandsAt results i) : l.peek.2.StandsAt results i := by
  intro n
  rw [← h n]
  cases n with
  | zero => rw [nth_zero, nth_zero, next_peek]
  | succ n => rw [nth_succ, nth_succ, next_peek]

end StandsAt

/-- `Holds l i` says something of a lexer that stands at result number `i`, and still says it when
that result has been looked at, and of the next one when it has been taken. -/
structure Preserved (results : Nat → Except Failure Token) (Holds : Lexer → Nat → Prop) :
    Prop where
  next_fst : ∀ {l i}, Holds l i → l.next.1 = results i
  peek : ∀ {l i}, Holds l i → Holds l.peek.2 i
  next : ∀ {l i}, Holds l i → Holds l.next.2 (i + 1)

namespace Preserved

variable {results : Nat → Except Failure Token} {Holds : Lexer → Nat → Prop} {l : Lexer} {i : Nat}

/-- Taking everything takes the results in their order. -/
theorem consumeAll (hpreserved : Preserved results Holds) (h : Holds l i) :
    ∃ j, Drained results i l.consumeAll.1 j ∧ Holds l.consumeAll.2 j := by
  fun_induction Lexer.consumeAll l generalizing i with
  | case1 l failure l' hnext =>
    have hresult := hpreserved.next_fst h
    have hafter := hpreserved.next h
    rw [hnext] at hresult hafter
    exact ⟨i + 1, .failure hresult.symm, hafter⟩
  | case2 l token l' hnext hend =>
    have hresult := hpreserved.next_fst h
    have hafter := hpreserved.next h
    rw [hnext] at hresult hafter
    exact ⟨i + 1, .endOfInput hresult.symm hend, hafter⟩
  | case3 l token l' hnext hend hlt tokens last hrest ih =>
    have hresult := hpreserved.next_fst h
    have hafter := hpreserved.next h
    rw [hnext] at hresult hafter
    obtain ⟨j, hdrained, hlast⟩ := ih hafter
    rw [hrest] at hdrained hlast
    exact ⟨j, .token hresult.symm (Bool.eq_false_iff.2 hend) hdrained, hlast⟩

/-- Requests are answered from where the lexer stands. -/
theorem answers (hpreserved : Preserved results Holds) (h : Holds l i)
    (requests : List Request) :
    ∃ j, Answered results i requests (l.answers requests) j ∧ Holds (l.after requests) j := by
  induction requests generalizing l i with
  | nil => exact ⟨i, .nil, h⟩
  | cons request requests ih =>
    cases request with
    | peek =>
      obtain ⟨j, hrest, hlast⟩ := ih (hpreserved.peek h)
      refine ⟨j, ?_, hlast⟩
      rw [Lexer.answers, answer, peek_fst, hpreserved.next_fst h]
      exact .peek hrest
    | next =>
      obtain ⟨j, hrest, hlast⟩ := ih (hpreserved.next h)
      refine ⟨j, ?_, hlast⟩
      rw [Lexer.answers, answer, hpreserved.next_fst h]
      exact .next hrest
    | consumeAll =>
      obtain ⟨j, hdrained, hafter⟩ := hpreserved.consumeAll h
      obtain ⟨k, hrest, hlast⟩ := ih hafter
      exact ⟨k, .consumeAll hdrained hrest, hlast⟩

end Preserved

/-- Requests are answered from the results in their order. -/
theorem StandsAt.answers {l : Lexer} {results : Nat → Except Failure Token} {i : Nat}
    (h : l.StandsAt results i) (requests : List Request) :
    ∃ j, Answered results i requests (l.answers requests) j := by
  have hpreserved : Preserved results fun l i => l.StandsAt results i :=
    ⟨StandsAt.next_fst, StandsAt.peek, StandsAt.next⟩
  obtain ⟨j, hanswered, -⟩ := hpreserved.answers h requests
  exact ⟨j, hanswered⟩

/-- Lookahead never loses, repeats or reorders a result. Whatever is asked of a lexer, it answers
from the results that it would give one by one, in their order, and after a failure or the end of
the input nothing else follows. -/
theorem lookahead_faithful (config : Config) (file : String) (source : Source) :
    let l := ofSource config file source
    (∀ requests, ∃ j, Answered l.nth 0 requests (l.answers requests) j) ∧
      (∀ i failure, l.nth i = .error failure → ∀ j, i ≤ j → l.nth j = .error failure) ∧
      ∀ i token, l.nth i = .ok token → token.isEndOfInput = true →
        token.value = "" ∧ ∀ j, i ≤ j → l.nth j = .ok token := by
  intro l
  refine ⟨?_, ?_, ?_⟩
  · intro requests
    have hstart : l.StandsAt l.nth 0 := fun n => congrArg l.nth (Nat.zero_add n).symm
    exact hstart.answers requests
  · intro i failure h j hij
    exact nth_eq_of_nth_eq_error h hij
  · intro i token h hend
    refine ⟨(nth_eq_of_isEndOfInput rfl h hend (Nat.le_refl i)).1, ?_⟩
    intro j hij
    exact (nth_eq_of_isEndOfInput rfl h hend hij).2

/-- A token that was looked at is taken once, and then the end of the input is told. -/
example : (ofString "a").answers [.peek, .next, .next, .peek] =
    [.one (.ok ⟨-2, "a", ⟨"", ⟨0, 1, 1⟩⟩⟩), .one (.ok ⟨-2, "a", ⟨"", ⟨0, 1, 1⟩⟩⟩),
      .one (.ok ⟨-1, "", ⟨"", ⟨1, 1, 2⟩⟩⟩), .one (.ok ⟨-1, "", ⟨"", ⟨1, 1, 2⟩⟩⟩)] := by
  cbv

end Lexer

end Lexis
