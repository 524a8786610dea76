import Mathlib.Order.Nat
import Lexis.Proofs.Lexeme.LayoutFaults

/-!
# Underscores in a text

Of any text whatever, whether it is read as a number or not, `Number.misplacedSeparator?` tells of
the first underscore that is out of place (`Number.misplacedSeparator?_eq_some_iff`). The rules of
this file speak of the text as a whole: what counts as a digit hangs on the two characters that it
starts with, and these count as a digit themselves where they are the mark of a radix. In ASCII, as
numbers are written, the index of a character is the index of its byte.
-/

namespace Lexis

namespace Radix

/-- A text starts with a zero and a letter that asks for the radix. -/
def HasMark (radix : Radix) (text : List Char) : Prop :=
  ∃ letter ∈ radix.letters, ∃ rest, text = '0' :: letter :: rest

theorem underscore_not_mem_letters (radix : Radix) : '_' ∉ radix.letters := by
  cases radix <;> decide

/-- No letter that asks for a radix is a digit of it. -/
theorem isDigit_of_mem_letters {radix : Radix} : ∀ c ∈ radix.letters, radix.isDigit c = false := by
  cases radix <;> simp [letters] <;> decide

end Radix

namespace Number

variable {radix radix' : Radix} {mark rest text : List Char} {c : Char} {i j : Nat}

/-! ## Underscores and their neighbours -/

/-- A character counts as a digit in a text. Letters do if the text has the mark of hexadecimal. -/
def IsDigitIn (text : List Char) (c : Char) : Prop :=
  '0' ≤ c ∧ c ≤ '9' ∨ Radix.HasMark .hexadecimal text ∧ ('a' ≤ c ∧ c ≤ 'f' ∨ 'A' ≤ c ∧ c ≤ 'F')

/-- A digit, or the mark of a radix, stands just before an index. -/
def FollowsDigit (text : List Char) (i : Nat) : Prop :=
  i = 2 ∧ (∃ radix : Radix, radix.HasMark text) ∨
    ∃ j c, i = j + 1 ∧ text[j]? = some c ∧ IsDigitIn text c

/-- A digit stands just behind an index. -/
def PrecedesDigit (text : List Char) (i : Nat) : Prop :=
  ∃ c, text[i + 1]? = some c ∧ IsDigitIn text c

/-- An underscore at an index has another one behind it. -/
def IsDoubled (text : List Char) (i : Nat) : Prop :=
  text[i]? = some '_' ∧ text[i + 1]? = some '_'

/-- An underscore at an index has something on one of its sides, an end of the text included, that
is neither a digit nor an underscore. -/
def IsNextToOther (text : List Char) (i : Nat) : Prop :=
  text[i]? = some '_' ∧
    (¬ (FollowsDigit text i ∨ ∃ j, i = j + 1 ∧ text[j]? = some '_') ∨
      ¬ (PrecedesDigit text i ∨ text[i + 1]? = some '_'))

/-- An underscore at an index stands behind no digit, or else in front of something that is neither
a digit nor an underscore. -/
def IsOutOfPlace (text : List Char) (i : Nat) : Prop :=
  text[i]? = some '_' ∧
    ¬ (FollowsDigit text i ∧ (PrecedesDigit text i ∨ text[i + 1]? = some '_'))

theorem not_isDigitIn_underscore : ¬ IsDigitIn text '_' := by
  rintro (h | ⟨-, h | h⟩) <;> revert h <;> decide

/-- What stands right behind an underscore stands behind no digit: no mark of a radix ends in an
underscore. -/
theorem not_followsDigit_of_underscore (hi : text[i]? = some '_') :
    ¬ FollowsDigit text (i + 1) := by
  rintro (⟨hone, radix, letter, hletter, rest, rfl⟩ | ⟨j, c, hj, hc, hdigit⟩)
  · cases hone
    cases hi
    exact radix.underscore_not_mem_letters hletter
  · cases hj
    rw [hi] at hc
    cases hc
    exact not_isDigitIn_underscore hdigit

/-! ## The mark and what follows it -/

/-- Every text is marked in some way. -/
theorem exists_isMarked (text : List Char) :
    ∃ (radix : Radix) (mark rest : List Char), text = mark ++ rest ∧ radix.IsMarked mark rest := by
  by_cases hzero : text.head? = some '0'
  · obtain ⟨rest, rfl⟩ := List.head?_eq_some_iff.1 hzero
    by_cases hletter : ∃ letter ∈ rest.head?, ∃ radix : Radix, letter ∈ radix.letters
    · obtain ⟨letter, hhead, radix, hmem⟩ := hletter
      obtain ⟨more, rfl⟩ := List.head?_eq_some_iff.1 hhead
      exact ⟨radix, ['0', letter], more, rfl, .letter hmem⟩
    · refine ⟨.leadingZero, [], '0' :: rest, rfl, .leadingZero fun c hc radix hmem => ?_⟩
      exact hletter ⟨c, hc, radix, hmem⟩
  · exact ⟨.decimal, [], text, rfl, .decimal hzero⟩

theorem hasMark_iff (h : radix.IsMarked mark rest) :
    radix'.HasMark (mark ++ rest) ↔ mark ≠ [] ∧ radix' = radix := by
  cases h with
  | @letter _ letter _ hletter =>
    constructor
    · rintro ⟨letter', hletter', rest', heq⟩
      cases heq
      exact ⟨List.cons_ne_nil _ _, Radix.eq_of_mem_letters hletter' hletter⟩
    · rintro ⟨-, rfl⟩
      exact ⟨letter, hletter, rest, rfl⟩
  | leadingZero hnone =>
    refine iff_of_false ?_ fun h => h.1 rfl
    rintro ⟨letter, hletter, rest', heq⟩
    cases heq
    exact hnone letter rfl radix' hletter
  | decimal hhead =>
    refine iff_of_false ?_ fun h => h.1 rfl
    rintro ⟨letter, hletter, rest', rfl⟩
    exact hhead rfl

/-- The digits of a text are those of its radix. -/
theorem isDigitIn_iff (h : radix.IsMarked mark rest) :
    IsDigitIn (mark ++ rest) c ↔ radix.isDigit c = true := by
  have hdigit : c.isDigit = true ↔ '0' ≤ c ∧ c ≤ '9' := Char.isDigit_iff_toNat
  have hmark : radix = .hexadecimal → mark ≠ [] := by
    rintro rfl
    cases h
    exact List.cons_ne_nil _ _
  rw [IsDigitIn, hasMark_iff h, Radix.isDigit]
  split
  · next hradix =>
    simp [hradix, hmark hradix, Text.isHexDigit, hdigit, or_assoc]
  · next hradix =>
    simp [Ne.symm hradix, hdigit]

theorem getElem?_behind_mark : (mark ++ rest)[mark.length + i]? = rest[i]? := by
  rw [List.getElem?_append_right (Nat.le_add_right _ _), Nat.add_sub_cancel_left]

/-- No underscore is part of a mark. -/
theorem length_mark_le (h : radix.IsMarked mark rest) (hi : (mark ++ rest)[i]? = some '_') :
    mark.length ≤ i := by
  by_contra hlt
  rw [List.getElem?_append_left (Nat.lt_of_not_le hlt)] at hi
  have hmem := List.mem_of_getElem? hi
  cases h with
  | letter hletter =>
    rcases List.mem_cons.1 hmem with habsurd | hmem
    · exact absurd habsurd (by decide)
    · rw [← List.mem_singleton.1 hmem] at hletter
      exact radix.underscore_not_mem_letters hletter
  | leadingZero | decimal => cases hmem

/-- A mark counts as a digit to what stands right behind it. -/
theorem followsDigit_iff (h : radix.IsMarked mark rest) :
    FollowsDigit (mark ++ rest) (mark.length + i) ↔
      DigitBefore radix.isDigit (if mark = [] then .other else .digit) rest i := by
  unfold FollowsDigit DigitBefore
  simp only [hasMark_iff h, isDigitIn_iff h]
  cases h with
  | @letter _ letter _ hletter =>
    have hlength : ['0', letter].length = 2 := rfl
    constructor
    · rintro (⟨htwo, -⟩ | ⟨j, c, hj, hc, hdigit⟩)
      · exact .inl ⟨by omega, rfl⟩
      · cases i with
        | zero =>
          cases hj
          cases hc
          rw [Radix.isDigit_of_mem_letters _ hletter] at hdigit
          cases hdigit
        | succ k =>
          have hbehind : j = 2 + k := by omega
          subst hbehind
          exact .inr ⟨k, c, rfl, getElem?_behind_mark.symm.trans hc, hdigit⟩
    · rintro (⟨rfl, -⟩ | ⟨k, c, rfl, hc, hdigit⟩)
      · exact .inl ⟨rfl, radix, List.cons_ne_nil _ _, rfl⟩
      · exact .inr ⟨2 + k, c, rfl, getElem?_behind_mark.trans hc, hdigit⟩
  | leadingZero | decimal => simp

theorem precedesDigit_iff (h : radix.IsMarked mark rest) :
    PrecedesDigit (mark ++ rest) (mark.length + i) ↔
      ∃ c, rest[i + 1]? = some c ∧ radix.isDigit c = true := by
  unfold PrecedesDigit
  simp only [isDigitIn_iff h, Nat.add_assoc, getElem?_behind_mark]

theorem isOutOfPlace_iff_isMisplaced (h : radix.IsMarked mark rest) :
    IsOutOfPlace (mark ++ rest) (mark.length + i) ↔
      IsMisplaced radix.isDigit (if mark = [] then .other else .digit) rest i := by
  rw [IsOutOfPlace, isMisplaced_iff, followsDigit_iff h, precedesDigit_iff h, Nat.add_assoc,
    getElem?_behind_mark, getElem?_behind_mark]

/-! ## The first underscore out of place -/

/-- The underscore that is told of is the first that is out of place. -/
theorem misplacedSeparator?_eq_some_iff :
    misplacedSeparator? text = some i ↔ IsLeast {i | IsOutOfPlace text i} i := by
  obtain ⟨radix, mark, rest, rfl, h⟩ := exists_isMarked text
  have hset : {i | IsOutOfPlace (mark ++ rest) i} =
      {i | mark.length ≤ i ∧ IsOutOfPlace (mark ++ rest) i} := by
    ext i
    rw [Set.mem_ofPred_eq, Set.mem_ofPred_eq, iff_and_self]
    exact fun hi => length_mark_le h hi.1
  have hbefore : (if mark = [] then SeparatorContext.other else .digit) ≠ .separator := by
    split <;> decide
  rw [misplacedSeparator?_of_isMarked h, hset, isLeast_from_iff,
    findMisplaced?_eq_some_iff radix.isDigit_underscore hbefore]
  simp only [isOutOfPlace_iff_isMisplaced h]

/-- Nothing is told of where no underscore is out of place. -/
theorem misplacedSeparator?_eq_none_iff :
    misplacedSeparator? text = none ↔ ¬ ∃ i, IsOutOfPlace text i := by
  classical
  constructor
  · intro hnone hsome
    have hfound := misplacedSeparator?_eq_some_iff.2 (Nat.isLeast_find hsome)
    rw [hnone] at hfound
    cases hfound
  · intro hnone
    rw [Option.eq_none_iff_forall_ne_some]
    exact fun i hi => hnone ⟨i, (misplacedSeparator?_eq_some_iff.1 hi).1⟩

/-- Some underscore is out of place where one does not stand between digits. -/
theorem exists_isOutOfPlace_iff :
    (∃ i, IsOutOfPlace text i) ↔
      ∃ i, text[i]? = some '_' ∧ ¬ (FollowsDigit text i ∧ PrecedesDigit text i) :=
  exists_underscore_iff fun _ => not_followsDigit_of_underscore

/-- The first underscore out of place is the second of the first two in a row, or else the first
next to something else than digits and underscores. -/
theorem isDoubled_or_isNextToOther (h : IsLeast {i | IsOutOfPlace text i} i) :
    (∃ j, i = j + 1 ∧ IsLeast {j | IsDoubled text j} j) ∨ IsLeast {j | IsNextToOther text j} i := by
  obtain ⟨⟨hi, hnot⟩, hfirst⟩ := h
  by_cases hbefore : ∃ j, i = j + 1 ∧ text[j]? = some '_'
  · obtain ⟨j, rfl, hj⟩ := hbefore
    refine .inl ⟨j, rfl, ⟨hj, hi⟩, ?_⟩
    rintro m ⟨hm, hnext⟩
    have hout : IsOutOfPlace text (m + 1) :=
      ⟨hnext, fun h => not_followsDigit_of_underscore hm h.1⟩
    exact Nat.le_of_succ_le_succ (hfirst hout)
  · refine .inr ⟨⟨hi, ?_⟩, ?_⟩
    · rcases not_and_or.1 hnot with hnot | hnot
      · exact .inl (not_or.2 ⟨hnot, hbefore⟩)
      · exact .inr hnot
    · rintro m ⟨hm, hother⟩
      refine hfirst ⟨hm, ?_⟩
      rintro ⟨hdigit, hbehind⟩
      rcases hother with hother | hother
      · exact hother (.inl hdigit)
      · exact hother hbehind

/-- No underscore is told of if and only if each stands between two digits, the mark of a radix
counting as a digit. One that is told of does not stand so, but all before it stand behind a digit
and in front of a digit or another underscore: it is the second of the first two in a row, or the
first next to something that is neither a digit nor an underscore. -/
theorem misplacedSeparator?_tells (text : List Char) :
    (misplacedSeparator? text = none ↔
      ∀ i, text[i]? = some '_' → FollowsDigit text i ∧ PrecedesDigit text i) ∧
    ∀ i, misplacedSeparator? text = some i →
      text[i]? = some '_' ∧ ¬ (FollowsDigit text i ∧ PrecedesDigit text i) ∧
      (∀ j < i, text[j]? = some '_' →
        FollowsDigit text j ∧ (PrecedesDigit text j ∨ text[j + 1]? = some '_')) ∧
      ((∃ j, i = j + 1 ∧ IsLeast {j | IsDoubled text j} j) ∨
        IsLeast {j | IsNextToOther text j} i) := by
  constructor
  · rw [misplacedSeparator?_eq_none_iff, exists_isOutOfPlace_iff]
    simp only [not_exists, not_and, Classical.not_imp, not_not]
  · intro i hi
    have hfirst := misplacedSeparator?_eq_some_iff.1 hi
    refine ⟨hfirst.1.1, ?_, ?_, isDoubled_or_isNextToOther hfirst⟩
    · exact fun h => hfirst.1.2 ⟨h.1, .inl h.2⟩
    · intro j hj hunderscore
      by_contra hnot
      exact absurd (hfirst.2 ⟨hunderscore, hnot⟩) (Nat.not_le_of_lt hj)

-- of two in a row it is the second, and a letter that is no digit leaves the first hanging
example : misplacedSeparator? ['1', '_', '_', '0'] = some 2 := by decide
example : misplacedSeparator? ['1', '_', 'e', '5'] = some 1 := by decide

end Number

end Lexis
