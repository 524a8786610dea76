import Lexis.Proofs.Stepwise.Moves

/-!
# Quoted literals step by step

Behind an opening quote a head goes round once for each item, and once more for what ends the
literal. It counts the items on the way and stops where the literal does (`Reading.items?_head`). An
escape is read by its own rules, which may break off anywhere (`Reading.escape?_head`).
-/

namespace Lexis

namespace Reading

variable {r : Reading} {c : SourceChar} {more : List SourceChar}

/-! ## Escapes -/

/-- Reads an escape behind its backslash. -/
def consumeEscape (r : Reading) (e : Escape) : Reading :=
  let after := r.bumps e.body.length
  if e.complete then after else after.report .invalidEscape

theorem rest_consumeEscape (r : Reading) (e : Escape) :
    (r.consumeEscape e).rest = r.rest.drop e.body.length := by
  unfold consumeEscape
  split
  · exact bumps_rest r _
  · exact bumps_rest r _

theorem Stands.consumeEscape (h : r.Stands) (e : Escape) : (r.consumeEscape e).Stands := by
  refine h.of_cursor_eq (n := e.body.length) ?_
  unfold Reading.consumeEscape
  split
  · exact bumps_cursor r _
  · exact bumps_cursor r _

/-- The digits of an escape are read one by one, as many as are allowed, and it is a fault if there
are less. -/
theorem escapeDigits?_head (isDigit : Char → Bool) (width : Nat) (h : r.Stands) :
    Stepper.escapeDigits? isDigit width r.head =
      some (r.consumeEscape ⟨Escape.digits isDigit width r.rest,
        (Escape.digits isDigit width r.rest).length = width⟩).head := by
  induction width generalizing r with
  | zero => rfl
  | succ width ih =>
    cases hrest : r.rest with
    | nil =>
      simp [Stepper.escapeDigits?, char?_head h, Cursor.currentChar?_of_rest_eq_nil hrest,
        Escape.digits, consumeEscape, bumps]
    | cons c more =>
      have hchar := Cursor.currentChar?_of_rest_eq_cons hrest
      have hbump : r.bump.rest = more := by rw [bump_rest, hrest, List.drop_one, List.tail_cons]
      have hmore := ih h.bump
      rw [hbump] at hmore
      by_cases hc : isDigit c.char = true
      · have hdigits : Escape.digits isDigit (width + 1) (c :: more) =
            c :: Escape.digits isDigit width more := by
          rw [Escape.digits, List.take_succ_cons, List.takeWhile_cons, if_pos hc]
          rfl
        simp [Stepper.escapeDigits?, char?_head h, hchar, hc, bump?_head h, hmore, hdigits,
          consumeEscape, bumps]
      · have hdigits : Escape.digits isDigit (width + 1) (c :: more) = [] := by
          rw [Escape.digits, List.take_succ_cons, List.takeWhile_cons, if_neg hc]
        simp [Stepper.escapeDigits?, char?_head h, hchar, hc, hdigits, consumeEscape, bumps]

/-- An escape is read by the character that follows the backslash. -/
theorem escape?_head (quote : Char) (h : r.Stands) :
    Stepper.escape? quote r.head = some (r.consumeEscape (Escape.read quote r.rest)).head := by
  cases hrest : r.rest with
  | nil =>
    simp [Stepper.escape?, char?_head h, Cursor.currentChar?_of_rest_eq_nil hrest, Escape.read,
      consumeEscape, bumps]
  | cons c more =>
    have hchar := Cursor.currentChar?_of_rest_eq_cons hrest
    have hbump : r.bump.rest = more := by rw [bump_rest, hrest, List.drop_one, List.tail_cons]
    rw [Stepper.escape?, Head.head_eq, char?_head h, hchar, Escape.read]
    simp only [Option.bind_eq_bind, Option.bind_some, Head.bump?_eq]
    split
    · exact bump?_head h
    split
    · rw [escapeDigits?_head Text.isOctalDigit 3 h, hrest]
    cases Escape.hexWidth? c.char with
    | some width =>
      simp only [bump?_head h, Option.bind_some]
      rw [escapeDigits?_head Text.isHexDigit width h.bump, hbump]
      rfl
    | none => rfl

/-! ## Items -/

/-- Reads items and the quote behind them, or reports that there is none. -/
def consumeItems (r : Reading) (items : List QuotedItem × Bool) : Reading :=
  let after := items.1.foldl consumeItem r
  if items.2 then after.bump else after.report .literalNotTerminated

theorem consumeItems_cons (r : Reading) (item : QuotedItem) (items : List QuotedItem)
    (closed : Bool) :
    r.consumeItems (item :: items, closed) = (r.consumeItem item).consumeItems (items, closed) :=
  rfl

/-- Behind an opening quote the items of the literal are read and counted, up to what ends it. As
many rounds as there are characters left, and one more, are enough. -/
theorem items?_head (quote : Char) {rounds : Nat} (count : Nat) (h : r.Stands)
    (hrounds : r.rest.length < rounds) :
    Stepper.items? quote rounds count r.head =
      some (count + (Quoted.readItems quote r.rest).1.length,
        (r.consumeItems (Quoted.readItems quote r.rest)).head) := by
  induction rounds generalizing r count with
  | zero => exact absurd hrounds (Nat.not_lt_zero _)
  | succ rounds ih =>
    cases hrest : r.rest with
    | nil =>
      simp [Stepper.items?, char?_head h, Cursor.currentChar?_of_rest_eq_nil hrest, Quoted.readItems,
        consumeItems]
    | cons c more =>
      have hchar := Cursor.currentChar?_of_rest_eq_cons hrest
      have hbump : r.bump.rest = more := by rw [bump_rest, hrest, List.drop_one, List.tail_cons]
      rw [hrest, List.length_cons] at hrounds
      rw [Stepper.items?, Head.head_eq, char?_head h, hchar, Quoted.readItems]
      simp only [Option.bind_eq_bind, Option.bind_some, Head.bump?_eq, bump?_head h]
      split
      · rfl
      split
      · rfl
      split
      -- an escape is one item, however long it is
      · have hescape := escape?_head quote h.bump
        rw [hbump] at hescape
        have hlater : (r.bump.consumeEscape (Escape.read quote more)).rest =
            more.drop (Escape.read quote more).body.length := by
          rw [rest_consumeEscape, hbump]
        have hitems := ih (count + 1) (h.bump.consumeEscape (Escape.read quote more)) (by
          rw [hlater, List.length_drop]
          omega)
        rw [hlater] at hitems
        simp only [hescape, Option.bind_some, hitems, consumeItems_cons, List.length_cons]
        rw [Nat.add_assoc, Nat.add_comm 1]
        rfl
      · have hitems := ih (count + 1) h.bump (by rw [hbump]; omega)
        rw [hbump] at hitems
        simp only [hitems, consumeItems_cons, List.length_cons]
        rw [Nat.add_assoc, Nat.add_comm 1]
        rfl

end Reading

end Lexis
