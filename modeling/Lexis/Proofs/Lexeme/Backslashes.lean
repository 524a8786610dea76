import Mathlib.Data.List.Induction
import Mathlib.Order.Bounds.Basic
import Lexis.Proofs.Lexeme.Quoted

/-!
# Counting backslashes in quoted literals

Where a quoted literal ends, and which of its backslashes introduce escapes, can be told without
knowing what an escape is: a quote or a backslash is escaped if an odd number of backslashes stands
directly before it. `Quoted.extent` and `Quoted.introducers` count like that, one character after
the other. Reading items looks for whole escapes, and where there is none goes on with the character
that none could go on with, and still comes to the same end and to the same escapes
(`Quoted.readItems_agrees`).
-/

namespace Lexis

namespace Quoted

/-! ## Odd and even numbers of backslashes -/

/-- Whether an odd number of backslashes stands behind one more character, where it did before or
did not. -/
def oddNext (odd : Bool) (c : Char) : Bool :=
  c == '\x5c' && !odd

/-- Whether an odd number of backslashes stands behind a text. -/
def oddBehind (odd : Bool) (text : List Char) : Bool :=
  text.foldl oddNext odd

/-- Number of backslashes that stand directly before an index of a text. -/
def slashesBefore (text : List Char) (i : Nat) : Nat :=
  ((text.take i).reverse.takeWhile (· == '\x5c')).length

theorem oddBehind_false (text : List Char) :
    oddBehind false text = decide ((text.reverse.takeWhile (· == '\x5c')).length % 2 = 1) := by
  induction text using List.reverseRecOn with
  | nil => rfl
  | append_singleton text c ih =>
    have hsnoc : oddBehind false (text ++ [c]) = oddNext (oddBehind false text) c := by
      rw [oddBehind, List.foldl_append]
      rfl
    rw [hsnoc, ih, oddNext, List.reverse_append, List.reverse_singleton, List.singleton_append,
      List.takeWhile_cons]
    by_cases hc : c = '\x5c'
    · subst hc
      rcases Nat.mod_two_eq_zero_or_one (text.reverse.takeWhile (· == '\x5c')).length with h | h
      · simp [h, Nat.add_mod]
      · simp [h, Nat.add_mod]
    · simp [hc]

/-- Whether a literal goes no further than a character, which stands behind an odd number of
backslashes or does not. -/
def isStop (quote : Char) (odd : Bool) (c : Char) : Bool :=
  c == '\n' || (c == quote && !odd)

/-- Number of characters before the first at which a literal stops. -/
def extent (quote : Char) (odd : Bool) : List Char → Nat
  | [] => 0
  | c :: rest => if isStop quote odd c then 0 else extent quote (oddNext odd c) rest + 1

/-- Indices of the backslashes before the stop that stand behind an even number of others. -/
def introducers (quote : Char) (odd : Bool) : List Char → List Nat
  | [] => []
  | c :: rest =>
    if isStop quote odd c then []
    else (if oddNext odd c then [0] else []) ++ (introducers quote (oddNext odd c) rest).map (· + 1)

variable {quote : Char} {odd : Bool} {text : List Char} {i : Nat}

theorem extent_cons_of_isStop {c : Char} (h : isStop quote odd c = true) (rest : List Char) :
    extent quote odd (c :: rest) = 0 :=
  if_pos h

theorem extent_cons {c : Char} (h : isStop quote odd c = false) (rest : List Char) :
    extent quote odd (c :: rest) = extent quote (oddNext odd c) rest + 1 := by
  rw [extent, h]
  rfl

theorem introducers_cons_of_isStop {c : Char} (h : isStop quote odd c = true)
    (rest : List Char) : introducers quote odd (c :: rest) = [] :=
  if_pos h

theorem introducers_cons {c : Char} (h : isStop quote odd c = false) (rest : List Char) :
    introducers quote odd (c :: rest) =
      (if oddNext odd c then [0] else []) ++
        (introducers quote (oddNext odd c) rest).map (· + 1) := by
  rw [introducers, h]
  rfl

/-- Before the stop there is no character to stop at. -/
theorem not_isStop_of_lt_extent (h : i < extent quote odd text) :
    ∃ c, text[i]? = some c ∧ isStop quote (oddBehind odd (text.take i)) c = false := by
  induction text generalizing odd i with
  | nil => cases h
  | cons c text ih =>
    cases hstop : isStop quote odd c with
    | true =>
      rw [extent_cons_of_isStop hstop] at h
      cases h
    | false =>
      rw [extent_cons hstop] at h
      cases i with
      | zero => exact ⟨c, rfl, hstop⟩
      | succ i => exact ih (Nat.lt_of_succ_lt_succ h)

/-- At the stop there is one, or the end. -/
theorem isStop_extent {c : Char} (h : text[extent quote odd text]? = some c) :
    isStop quote (oddBehind odd (text.take (extent quote odd text))) c = true := by
  induction text generalizing odd with
  | nil => cases h
  | cons d text ih =>
    cases hstop : isStop quote odd d with
    | true =>
      rw [extent_cons_of_isStop hstop] at h ⊢
      cases h
      exact hstop
    | false =>
      rw [extent_cons hstop] at h ⊢
      exact ih h

theorem extent_le_length (quote : Char) (odd : Bool) (text : List Char) :
    extent quote odd text ≤ text.length := by
  by_contra h
  obtain ⟨c, hc, -⟩ := not_isStop_of_lt_extent (Nat.lt_of_not_le h)
  simp at hc

theorem mem_introducers :
    i ∈ introducers quote odd text ↔ i < extent quote odd text ∧ text[i]? = some '\x5c' ∧
      oddBehind odd (text.take i) = false := by
  induction text generalizing odd i with
  | nil => simp [introducers, extent]
  | cons c text ih =>
    cases hstop : isStop quote odd c with
    | true => simp [introducers_cons_of_isStop hstop, extent_cons_of_isStop hstop]
    | false =>
      rw [introducers_cons hstop, extent_cons hstop, List.mem_append]
      cases i with
      | zero =>
        simp [oddNext, oddBehind]
      | succ i =>
        have hsucc : i + 1 ∉ if oddNext odd c = true then [0] else [] := by
          split
          · simp
          · simp
        have htail : i + 1 ∈ (introducers quote (oddNext odd c) text).map (· + 1) ↔
            i ∈ introducers quote (oddNext odd c) text := by simp
        rw [htail, ih]
        simp [hsucc, oddBehind]

/-- The introducing backslashes are listed in their order. -/
theorem pairwise_introducers (quote : Char) (odd : Bool) (text : List Char) :
    (introducers quote odd text).Pairwise (· < ·) := by
  induction text generalizing odd with
  | nil => exact List.Pairwise.nil
  | cons c text ih =>
    cases hstop : isStop quote odd c with
    | true =>
      rw [introducers_cons_of_isStop hstop]
      exact List.Pairwise.nil
    | false =>
      rw [introducers_cons hstop, List.pairwise_append, List.pairwise_map]
      refine ⟨?_, (ih _).imp fun h => Nat.succ_lt_succ h, ?_⟩
      · split
        · exact List.pairwise_singleton _ _
        · exact List.Pairwise.nil
      · intro a ha b hb
        obtain ⟨b, -, rfl⟩ := List.mem_map.1 hb
        split at ha
        · rw [List.mem_singleton] at ha
          omega
        · cases ha

/-! ## Texts that a literal does not stop in -/

/-- A literal does not stop in a text, wherever it stops behind it, and the given backslashes of the
text introduce escapes. -/
structure Crosses (quote : Char) (odd : Bool) (text : List Char) (oddAfter : Bool)
    (marks : List Nat) : Prop where
  extent_eq : ∀ rest, extent quote odd (text ++ rest) =
    text.length + extent quote oddAfter rest
  introducers_eq : ∀ rest, introducers quote odd (text ++ rest) =
    marks ++ (introducers quote oddAfter rest).map (· + text.length)

namespace Crosses

/-- One character. -/
theorem single {c : Char} (h : isStop quote odd c = false) :
    Crosses quote odd [c] (oddNext odd c) (if oddNext odd c then [0] else []) where
  extent_eq rest := (extent_cons h rest).trans (Nat.add_comm _ _)
  introducers_eq rest := introducers_cons h rest

/-- One text after the other. -/
theorem append {a b : List Char} {oddBetween oddAfter : Bool} {marks more : List Nat}
    (ha : Crosses quote odd a oddBetween marks) (hb : Crosses quote oddBetween b oddAfter more) :
    Crosses quote odd (a ++ b) oddAfter (marks ++ more.map (· + a.length)) where
  extent_eq rest := by
    rw [List.append_assoc, ha.extent_eq, hb.extent_eq, List.length_append, Nat.add_assoc]
  introducers_eq rest := by
    have hshift : (fun n => n + b.length + a.length) = fun n => n + (a ++ b).length := by
      funext n
      rw [List.length_append]
      omega
    rw [List.append_assoc, ha.introducers_eq, hb.introducers_eq, List.map_append, List.map_map,
      List.append_assoc, ← hshift]
    rfl

end Crosses

/-- A character that neither ends a literal nor matters to what follows it. -/
structure IsInert (quote c : Char) : Prop where
  ne_quote : c ≠ quote
  ne_newline : c ≠ '\n'
  ne_backslash : c ≠ '\x5c'

theorem IsInert.isStop {c : Char} (h : IsInert quote c) (odd : Bool) :
    isStop quote odd c = false := by
  simp [Quoted.isStop, h.ne_quote, h.ne_newline]

theorem IsInert.oddNext {c : Char} (h : IsInert quote c) (odd : Bool) : oddNext odd c = false := by
  simp [Quoted.oddNext, h.ne_backslash]

theorem IsInert.crosses {c : Char} (h : IsInert quote c) (odd : Bool) :
    Crosses quote odd [c] false [] := by
  have hsingle := Crosses.single (h.isStop odd)
  rwa [h.oddNext] at hsingle

/-- Behind inert characters the number of backslashes is zero. -/
theorem crosses_of_inert (hne : text ≠ []) (h : ∀ c ∈ text, IsInert quote c) (odd : Bool) :
    Crosses quote odd text false [] := by
  induction text generalizing odd with
  | nil => exact absurd rfl hne
  | cons c text ih =>
    have hc := (h c List.mem_cons_self).crosses odd
    by_cases hrest : text = []
    · rw [hrest]
      exact hc
    · exact hc.append (ih hrest (fun d hd => h d (List.mem_cons_of_mem _ hd)) false)

end Quoted

end Lexis
