import Lexis.Proofs.Lexeme.FirstIndex
import Lexis.Proofs.Lexeme.NumberGrammar

/-!
# Misplaced underscores

An underscore belongs between two digits (`Number.IsBetweenDigits`). The walk over the text of a
number tells of the first one that does not stand there, where of two in a row it is the second that
is out of place (`Number.IsMisplaced`); that it does so is `Number.findMisplaced?_eq_some_iff`.
-/

namespace Lexis

namespace Number

variable {isDigit : Char → Bool} {before : SeparatorContext} {text rest : List Char} {i : Nat}

/-! ## Underscores and their neighbours -/

/-- A digit stands just before an index. At the start, what comes before the text may count as one.
-/
def DigitBefore (isDigit : Char → Bool) (before : SeparatorContext) (text : List Char) (i : Nat) :
    Prop :=
  i = 0 ∧ before = .digit ∨ ∃ j c, i = j + 1 ∧ text[j]? = some c ∧ isDigit c = true

/-- A digit stands just before an index and another just behind it. -/
def IsBetweenDigits (isDigit : Char → Bool) (before : SeparatorContext) (text : List Char)
    (i : Nat) : Prop :=
  DigitBefore isDigit before text i ∧ ∃ c, text[i + 1]? = some c ∧ isDigit c = true

/-- An underscore stands at an index, but not behind a digit, or else in front of something that is
neither a digit nor an underscore. -/
def IsMisplaced (isDigit : Char → Bool) (before : SeparatorContext) (text : List Char) (i : Nat) :
    Prop :=
  text[i]? = some '_' ∧
    ¬ (DigitBefore isDigit before text i ∧ ∃ c, text[i + 1]? = some c ∧ (isDigit c = true ∨ c = '_'))

/-- What may stand behind an underscore is a digit or another underscore. -/
theorem isMisplaced_iff :
    IsMisplaced isDigit before text i ↔ text[i]? = some '_' ∧
      ¬ (DigitBefore isDigit before text i ∧
        ((∃ c, text[i + 1]? = some c ∧ isDigit c = true) ∨ text[i + 1]? = some '_')) := by
  have hnext : (∃ c, text[i + 1]? = some c ∧ (isDigit c = true ∨ c = '_')) ↔
      (∃ c, text[i + 1]? = some c ∧ isDigit c = true) ∨ text[i + 1]? = some '_' := by
    simp only [and_or_left, exists_or, exists_eq_right]
  rw [IsMisplaced, hnext]

/-- Where no underscore is a digit to the next, it makes no difference to whether all are between
digits that one may stand in front of another: of two in a row the second is not between digits. -/
theorem exists_underscore_iff {follows precedes : Nat → Prop}
    (h : ∀ i, text[i]? = some '_' → ¬ follows (i + 1)) :
    (∃ i, text[i]? = some '_' ∧ ¬ (follows i ∧ (precedes i ∨ text[i + 1]? = some '_'))) ↔
      ∃ i, text[i]? = some '_' ∧ ¬ (follows i ∧ precedes i) := by
  constructor
  · rintro ⟨i, hi, hnot⟩
    exact ⟨i, hi, fun hboth => hnot ⟨hboth.1, .inl hboth.2⟩⟩
  · rintro ⟨i, hi, hnot⟩
    by_cases hnext : text[i + 1]? = some '_'
    · exact ⟨i + 1, hnext, fun hboth => h i hi hboth.1⟩
    · refine ⟨i, hi, ?_⟩
      rintro ⟨hfollows, hprecedes | habsurd⟩
      · exact hnot ⟨hfollows, hprecedes⟩
      · exact hnext habsurd

/-- An underscore is not the digit before what follows it. -/
theorem not_digitBefore_of_underscore (hunderscore : isDigit '_' = false)
    (hi : text[i]? = some '_') : ¬ DigitBefore isDigit before text (i + 1) := by
  rintro (⟨habsurd, -⟩ | ⟨j, c, hj, hc, hdigit⟩)
  · cases habsurd
  · cases hj
    rw [hi] at hc
    cases hc
    rw [hunderscore] at hdigit
    cases hdigit

/-- Some underscore is misplaced where one does not stand between digits. -/
theorem exists_isMisplaced_iff (hunderscore : isDigit '_' = false) :
    (∃ i, IsMisplaced isDigit before text i) ↔
      ∃ i, text[i]? = some '_' ∧ ¬ IsBetweenDigits isDigit before text i := by
  simp only [isMisplaced_iff]
  exact exists_underscore_iff fun i => not_digitBefore_of_underscore hunderscore

/-! ## From one character to the next -/

theorem digitBefore_zero : DigitBefore isDigit before text 0 ↔ before = .digit := by
  constructor
  · rintro (⟨-, h⟩ | ⟨j, c, hj, -⟩)
    · exact h
    · cases hj
  · exact fun h => .inl ⟨rfl, h⟩

theorem digitBefore_succ {c : Char} {behind : SeparatorContext}
    (hbehind : behind = .digit ↔ isDigit c = true) :
    DigitBefore isDigit before (c :: rest) (i + 1) ↔ DigitBefore isDigit behind rest i := by
  cases i with
  | zero =>
    rw [digitBefore_zero, hbehind]
    constructor
    · rintro (⟨h, -⟩ | ⟨j, d, hj, hd, hdigit⟩)
      · cases h
      · cases hj
        cases hd
        exact hdigit
    · exact fun h => .inr ⟨0, c, rfl, rfl, h⟩
  | succ i =>
    constructor
    · rintro (⟨h, -⟩ | ⟨j, d, hj, hd, hdigit⟩)
      · cases h
      · cases hj
        exact .inr ⟨i, d, rfl, hd, hdigit⟩
    · rintro (⟨h, -⟩ | ⟨j, d, hj, hd, hdigit⟩)
      · cases h
      · cases hj
        exact .inr ⟨i + 1, d, rfl, hd, hdigit⟩

theorem isMisplaced_succ {c : Char} {behind : SeparatorContext}
    (hbehind : behind = .digit ↔ isDigit c = true) :
    IsMisplaced isDigit before (c :: rest) (i + 1) ↔ IsMisplaced isDigit behind rest i := by
  simp only [IsMisplaced, List.getElem?_cons_succ, digitBefore_succ hbehind]

theorem not_isMisplaced_zero {c : Char} (hc : c ≠ '_') :
    ¬ IsMisplaced isDigit before (c :: rest) 0 := by
  rintro ⟨h, -⟩
  exact hc (Option.some.inj h)

/-- An underscore in front is misplaced where it stands behind no digit or interrupts the digits. -/
theorem isMisplaced_zero_underscore :
    IsMisplaced isDigit before ('_' :: rest) 0 ↔ before ≠ .digit ∨ Interrupts isDigit rest := by
  have hnext : Interrupts isDigit rest ↔
      ¬ ∃ c, rest[0]? = some c ∧ (isDigit c = true ∨ c = '_') := by
    simp only [Interrupts, List.head?_eq_getElem?, Option.mem_def, not_exists, not_and, not_or,
      Bool.not_eq_true]
    exact forall₂_congr fun c _ => and_comm
  rw [hnext, IsMisplaced, digitBefore_zero, not_and_or]
  exact and_iff_right rfl

/-! ## The walk -/

theorem interrupts_nil : Interrupts isDigit [] := by
  intro c hc
  cases hc

theorem interrupts_cons {c : Char} (hc : c ≠ '_') (hdigit : ¬ isDigit c = true) :
    Interrupts isDigit (c :: rest) := by
  intro d hd
  cases hd
  exact ⟨hc, Bool.eq_false_iff.2 hdigit⟩

/-- The last character is an underscore, and the text does not go on from it. -/
def Hangs (isDigit : Char → Bool) (before : SeparatorContext) (text : List Char) : Prop :=
  before = .separator ∧ Interrupts isDigit text

/-- The walk ends at the first character where that is misplaced. -/
private theorem isLeast_of_isMisplaced_zero {index k : Nat}
    (h : IsMisplaced isDigit before text 0) :
    (∃ i, IsLeast {i | IsMisplaced isDigit before text i} i ∧ k = index + i) ↔ k = index := by
  have hleast : IsLeast {i | IsMisplaced isDigit before text i} 0 := ⟨h, fun _ _ => Nat.zero_le _⟩
  constructor
  · rintro ⟨i, hi, rfl⟩
    rw [hi.unique hleast, Nat.add_zero]
  · exact fun hk => ⟨0, hleast, hk⟩

/-- The walk goes on behind the first character where that is not misplaced. -/
private theorem isLeast_cons_of_not_isMisplaced {c : Char} {behind : SeparatorContext}
    {index k : Nat} (hbehind : behind = .digit ↔ isDigit c = true)
    (hfirst : ¬ IsMisplaced isDigit before (c :: rest) 0) :
    (∃ i, IsLeast {i | IsMisplaced isDigit before (c :: rest) i} i ∧ k = index + i) ↔
      ∃ i, IsLeast {i | IsMisplaced isDigit behind rest i} i ∧ k = index + 1 + i := by
  have hleast (i : Nat) : IsLeast {i | IsMisplaced isDigit before (c :: rest) i} i ↔
      ∃ j, IsLeast {j | IsMisplaced isDigit behind rest j} j ∧ i = j + 1 := by
    rw [isLeast_iff_of_zero, or_iff_right fun h => hfirst h.1, and_iff_right hfirst]
    simp only [isMisplaced_succ hbehind]
  constructor
  · rintro ⟨i, hi, rfl⟩
    obtain ⟨j, hj, rfl⟩ := (hleast i).1 hi
    exact ⟨j, hj, by omega⟩
  · rintro ⟨j, hj, rfl⟩
    exact ⟨j + 1, (hleast _).2 ⟨j, hj, rfl⟩, by omega⟩

/-- From any point on, the walk tells of the first misplaced underscore, unless the one that it has
just come over is left hanging. -/
theorem findMisplaced?_eq_some_iff_of_hangs (hunderscore : isDigit '_' = false) {index k : Nat} :
    findMisplaced? isDigit before index text = some k ↔
      Hangs isDigit before text ∧ k = index - 1 ∨ ¬ Hangs isDigit before text ∧
        ∃ i, IsLeast {i | IsMisplaced isDigit before text i} i ∧ k = index + i := by
  -- what comes first in the text is a digit, goes on from an underscore, or ends the digits
  fun_induction findMisplaced? isDigit before index text with
  | case1 index => simp [Hangs, interrupts_nil, eq_comm]
  | case2 before index hbefore =>
    have hnone : ¬ ∃ i, IsLeast {i | IsMisplaced isDigit before [] i} i ∧ k = index + i := by
      rintro ⟨i, ⟨⟨h, -⟩, -⟩, -⟩
      cases h
    simp [Hangs, hbefore, hnone]
  | case3 index rest ih =>
    have hgoes : ¬ Hangs isDigit .digit ('_' :: rest) := fun h => by cases h.1
    have hbehind : SeparatorContext.separator = .digit ↔ isDigit '_' = true := by
      simp [hunderscore]
    rw [ih]
    by_cases hhangs : Hangs isDigit .separator rest
    · have hfirst : IsMisplaced isDigit .digit ('_' :: rest) 0 :=
        isMisplaced_zero_underscore.2 (.inr hhangs.2)
      rw [isLeast_of_isMisplaced_zero hfirst]
      simp [hgoes, hhangs]
    · have hfirst : ¬ IsMisplaced isDigit .digit ('_' :: rest) 0 := by
        rw [isMisplaced_zero_underscore, not_or]
        exact ⟨not_not.2 rfl, fun h => hhangs ⟨rfl, h⟩⟩
      rw [isLeast_cons_of_not_isMisplaced hbehind hfirst]
      simp [hgoes, hhangs]
  | case4 before index rest hbefore =>
    have hgoes : ¬ Hangs isDigit before ('_' :: rest) := fun h => (h.2 '_' rfl).1 rfl
    have hfirst : IsMisplaced isDigit before ('_' :: rest) 0 :=
      isMisplaced_zero_underscore.2 (.inl hbefore)
    rw [isLeast_of_isMisplaced_zero hfirst]
    simp [hgoes, eq_comm]
  | case5 before index c rest hc hdigit ih =>
    have hgoes : ¬ Hangs isDigit before (c :: rest) := by
      rintro ⟨-, h⟩
      rw [(h c rfl).2] at hdigit
      cases hdigit
    have hends : ¬ Hangs isDigit .digit rest := fun h => by cases h.1
    have hbehind : SeparatorContext.digit = .digit ↔ isDigit c = true := by simp [hdigit]
    rw [ih, isLeast_cons_of_not_isMisplaced hbehind (not_isMisplaced_zero hc)]
    simp [hgoes, hends]
  | case6 index c rest hc hdigit =>
    have hhangs : Hangs isDigit .separator (c :: rest) := ⟨rfl, interrupts_cons hc hdigit⟩
    simp [hhangs, eq_comm]
  | case7 before index c rest hc hdigit hbefore ih =>
    have hgoes : ¬ Hangs isDigit before (c :: rest) := fun h => hbefore h.1
    have hends : ¬ Hangs isDigit .other rest := fun h => by cases h.1
    have hbehind : SeparatorContext.other = .digit ↔ isDigit c = true := by simp [hdigit]
    rw [ih, isLeast_cons_of_not_isMisplaced hbehind (not_isMisplaced_zero hc)]
    simp [hgoes, hends]

/-- The walk over a text tells of the first misplaced underscore in it. -/
theorem findMisplaced?_eq_some_iff (hunderscore : isDigit '_' = false)
    (hbefore : before ≠ .separator) {index k : Nat} :
    findMisplaced? isDigit before index text = some k ↔
      ∃ i, IsLeast {i | IsMisplaced isDigit before text i} i ∧ k = index + i := by
  have hgoes : ¬ Hangs isDigit before text := fun h => hbefore h.1
  rw [findMisplaced?_eq_some_iff_of_hangs hunderscore, and_iff_right hgoes,
    or_iff_right fun h => hgoes h.1]

end Number

end Lexis
