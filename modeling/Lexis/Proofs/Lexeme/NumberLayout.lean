import Lexis.Proofs.Lexeme.NumberLiteral
import Lexis.Proofs.Lexeme.Separators

/-!
# Faults told from the text of a number

A `NumberLayout` takes the text of a number apart by its characters alone, into the mark of the
radix, the mantissa and the exponent. There is only one way to do so
(`NumberLayout.eq_of_text_eq`), and from it every fault that the number has is told, with the place
where it shows (`NumberLayout.Shows`). Every number that is read has a layout (`Number.layout`).
-/

namespace Lexis

namespace Radix

/-- The letters that ask for this radix behind a zero. -/
def letters : Radix → List Char
  | hexadecimal => ['x', 'X']
  | octal => ['o', 'O']
  | binary => ['b', 'B']
  | decimal => []
  | leadingZero => []

/-- A text is marked as a number of this radix, by a zero and a letter or by how it starts. -/
inductive IsMarked : Radix → List Char → List Char → Prop
  | letter {radix : Radix} {letter : Char} {rest : List Char} (h : letter ∈ radix.letters) :
      IsMarked radix ['0', letter] rest
  /-- A zero without such a letter is the first digit. -/
  | leadingZero {rest : List Char} (h : ∀ c ∈ rest.head?, ∀ radix : Radix, c ∉ radix.letters) :
      IsMarked leadingZero [] ('0' :: rest)
  | decimal {rest : List Char} (h : rest.head? ≠ some '0') : IsMarked decimal [] rest

/-- The letters that announce an exponent behind digits of this radix. -/
def exponentLetters (radix : Radix) : List Char :=
  if radix = hexadecimal then ['p', 'P'] else ['e', 'E', 'p', 'P']

/-- The character is a decimal digit, but none of this radix. -/
def TooLarge (radix : Radix) (c : Char) : Prop :=
  c.isDigit = true ∧
    ((radix = octal ∨ radix = leadingZero) ∧ '8' ≤ c ∨ radix = binary ∧ '2' ≤ c)

theorem ofLetter?_eq_some_iff {radix : Radix} {c : Char} :
    ofLetter? c = some radix ↔ c ∈ radix.letters := by
  unfold ofLetter?
  cases radix <;> grind [letters]

/-- A letter asks for one radix only. -/
theorem eq_of_mem_letters {radix radix' : Radix} {c : Char} (h : c ∈ radix.letters)
    (h' : c ∈ radix'.letters) : radix = radix' :=
  Option.some.inj ((ofLetter?_eq_some_iff.2 h).symm.trans (ofLetter?_eq_some_iff.2 h'))

/-- A text is marked in one way only. -/
theorem IsMarked.unique {radix radix' : Radix} {mark mark' rest rest' : List Char}
    (h : IsMarked radix mark rest) (h' : IsMarked radix' mark' rest')
    (heq : mark ++ rest = mark' ++ rest') : radix = radix' ∧ mark = mark' := by
  cases h with
  | letter h =>
    cases h' with
    | letter h' =>
      cases heq
      exact ⟨eq_of_mem_letters h h', rfl⟩
    | leadingZero h' =>
      cases heq
      exact absurd h (h' _ rfl _)
    | decimal h' => exact absurd (congrArg List.head? heq).symm h'
  | leadingZero h =>
    cases h' with
    | letter h' =>
      cases heq
      exact absurd h' (h _ rfl _)
    | leadingZero => exact ⟨rfl, rfl⟩
    | decimal h' => exact absurd (congrArg List.head? heq).symm h'
  | decimal h =>
    cases h' with
    | letter | leadingZero => exact absurd (congrArg List.head? heq) h
    | decimal => exact ⟨rfl, rfl⟩

theorem exceeds_iff_tooLarge {radix : Radix} {c : Char} :
    radix.exceeds c = true ↔ radix.TooLarge c := by
  by_cases hdigit : c.isDigit = true
  · have hvalue (d : Char) : d.toNat - '0'.toNat ≤ Text.digitValue c ↔ d ≤ c := by
      have hlow : '0'.toNat ≤ c.toNat := (Char.isDigit_iff_toNat.1 hdigit).1
      have hle : d ≤ c ↔ d.toNat ≤ c.toNat := Iff.rfl
      rw [Text.digitValue, if_pos hdigit, hle]
      omega
    have height : 8 ≤ Text.digitValue c ↔ '8' ≤ c := hvalue '8'
    have htwo : 2 ≤ Text.digitValue c ↔ '2' ≤ c := hvalue '2'
    have hten : ¬ 10 ≤ Text.digitValue c := by
      have hhigh : c.toNat ≤ '9'.toNat := (Char.isDigit_iff_toNat.1 hdigit).2
      have hnine : '9'.toNat = '0'.toNat + 9 := rfl
      rw [Text.digitValue, if_pos hdigit]
      omega
    cases radix <;> simp [exceeds, TooLarge, hdigit, base, height, htwo, hten]
  · simp [exceeds, TooLarge, hdigit]

/-- No digit announces an exponent. -/
theorem accepts_of_mem_exponentLetters {radix : Radix} :
    ∀ c ∈ radix.exponentLetters, radix.accepts c = false := by
  cases radix <;> simp [exponentLetters] <;> decide

end Radix

/-- The text of a number, taken apart by its characters alone. -/
structure NumberLayout where
  radix : Radix
  /-- A zero with the letter that asks for the radix, or nothing. -/
  mark : List Char
  /-- What follows the mark, up to the exponent. -/
  mantissa : List Char
  /-- The letter that announces an exponent with all that follows it, or nothing. -/
  exponent : List Char
  isMarked : radix.IsMarked mark (mantissa ++ exponent)
  not_announced : ∀ c ∈ mantissa, c ∉ radix.exponentLetters
  announced : ∀ c ∈ exponent.head?, c ∈ radix.exponentLetters

namespace NumberLayout

/-- What follows the mark. -/
def body (l : NumberLayout) : List Char :=
  l.mantissa ++ l.exponent

/-- The whole text. -/
def text (l : NumberLayout) : List Char :=
  l.mark ++ l.body

/-- A mark counts as a digit to an underscore behind it. -/
def before (l : NumberLayout) : SeparatorContext :=
  if l.mark = [] then .other else .digit

/-- The mantissa goes on up to the first letter that announces an exponent. -/
theorem mantissa_eq_takeWhile (l : NumberLayout) :
    l.mantissa = l.body.takeWhile fun c => decide (c ∉ l.radix.exponentLetters) := by
  have hmantissa : ∀ c ∈ l.mantissa, decide (c ∉ l.radix.exponentLetters) = true := by
    simpa using l.not_announced
  have hexponent : l.exponent.takeWhile (fun c => decide (c ∉ l.radix.exponentLetters)) = [] := by
    cases he : l.exponent with
    | nil => rfl
    | cons marker rest =>
      have hmarker := l.announced marker (by rw [he]; rfl)
      simp [hmarker]
  rw [body, List.takeWhile_append_of_pos hmantissa, hexponent, List.append_nil]

/-- A text is laid out in one way only. -/
theorem eq_of_text_eq {l l' : NumberLayout} (h : l.text = l'.text) : l = l' := by
  obtain ⟨hradix, hmark⟩ := l.isMarked.unique l'.isMarked h
  have hbody : l.body = l'.body := by
    rw [text, text, hmark] at h
    exact List.append_cancel_left h
  have hmantissa : l.mantissa = l'.mantissa := by
    rw [mantissa_eq_takeWhile, mantissa_eq_takeWhile, hbody, hradix]
  have hexponent : l.exponent = l'.exponent := by
    rw [body, body, hmantissa] at hbody
    exact List.append_cancel_left hbody
  cases l
  cases l'
  subst hradix hmark hmantissa hexponent
  rfl

/-- A number of the given kind with this layout has a fault, which shows at an index of its text. -/
inductive Shows (l : NumberLayout) (kind : Kind) : Nat → Fault → Prop
  /-- The first digit of an integer that is too large. -/
  | invalidDigit {k : Nat} {c : Char} (hkind : kind = .integer)
      (hfirst : IsLeast {k | ∃ c, l.body[k]? = some c ∧ l.radix.TooLarge c} k)
      (hc : l.body[k]? = some c) :
      Shows l kind (l.mark.length + k) (.invalidDigit c l.radix.numeral)
  /-- A radix point in an octal or binary number. -/
  | invalidRadixPoint {i : Nat} (hradix : l.radix = .octal ∨ l.radix = .binary)
      (hpoint : l.text[i]? = some '.') : Shows l kind i (.invalidRadixPoint l.radix.numeral)
  /-- The end of a mantissa without digits. -/
  | noDigits (hnone : ∀ c ∈ l.mantissa, l.radix.isDigit c = false) :
      Shows l kind (l.mark ++ l.mantissa).length (.noDigits l.radix.numeral)
  /-- The letter of a decimal exponent behind an octal or binary mantissa. -/
  | exponentRequiresDecimal {marker : Char} (hradix : l.radix = .octal ∨ l.radix = .binary)
      (hexponent : l.exponent.head? = some marker) (hmarker : marker = 'e' ∨ marker = 'E') :
      Shows l kind (l.mark ++ l.mantissa).length (.exponentRequiresDecimal marker)
  /-- The letter of a binary exponent behind a mantissa that is not hexadecimal. -/
  | exponentRequiresHex {marker : Char} (hradix : l.radix ≠ .hexadecimal)
      (hexponent : l.exponent.head? = some marker) (hmarker : marker = 'p' ∨ marker = 'P') :
      Shows l kind (l.mark ++ l.mantissa).length (.exponentRequiresHex marker)
  /-- The end of an exponent without digits. -/
  | exponentNoDigits {marker : Char} {sign rest : List Char}
      (hexponent : l.exponent = marker :: sign ++ rest)
      (hsign : sign = [] ∨ sign = ['+'] ∨ sign = ['-'])
      (hnone : ∀ c ∈ rest, c.isDigit = false) : Shows l kind l.text.length .exponentNoDigits
  /-- The end of a hexadecimal number that has a radix point but no exponent. -/
  | hexMantissaRequiresExponent (hradix : l.radix = .hexadecimal) (hpoint : '.' ∈ l.text)
      (hexponent : l.exponent = []) : Shows l kind l.text.length .hexMantissaRequiresExponent
  /-- The first misplaced underscore. -/
  | invalidSeparator {k : Nat}
      (hfirst : IsLeast {k | Number.IsMisplaced l.radix.isDigit l.before l.body k} k) :
      Shows l kind (l.mark.length + k) .invalidSeparator

end NumberLayout

namespace Number

variable {n : Number}

/-- The zero and the letter that ask for the radix. A leading zero without a letter is a digit. -/
def mark (n : Number) : List Char :=
  if n.radix = .leadingZero then [] else n.lead

/-- The leading zero where it is a digit. -/
def leadingZero (n : Number) : List Char :=
  if n.radix = .leadingZero then n.lead else []

theorem lead_eq (n : Number) : n.lead = n.mark ++ n.leadingZero := by
  unfold mark leadingZero
  split
  · rfl
  · rw [List.append_nil]

theorem Composed.lead_of_leadingZero (h : n.Composed) (hradix : n.radix = .leadingZero) :
    n.lead = ['0'] := by
  rcases h.lead.cases with ⟨hdecimal, -⟩ | ⟨-, hlead, -⟩ | ⟨letter, hletter, -⟩
  · rw [hradix] at hdecimal
    cases hdecimal
  · exact hlead
  · exact absurd hradix (Radix.ne_of_ofLetter? hletter).2

/-- The letter that asks for a radix, if there is one, is the one that the number was read by. -/
theorem Composed.isMarked (h : n.Composed) :
    n.radix.IsMarked n.mark (n.leadingZero ++ (n.whole ++ n.tail)) := by
  unfold mark leadingZero
  rcases h.lead.cases with ⟨hradix, hlead, -⟩ | ⟨hradix, hlead, -⟩ | ⟨letter, hletter, hlead, -⟩
  · have hhead : (n.whole ++ n.tail).head? ≠ some '0' := by
      intro hzero
      obtain ⟨rest, hrest⟩ := List.head?_eq_some_iff.1 hzero
      exact h.head_ne_zero hradix rest hrest
    rw [if_neg (by simp [hradix]), if_neg (by simp [hradix]), hlead, hradix]
    exact .decimal hhead
  · rw [if_pos hradix, if_pos hradix, hlead, hradix]
    refine .leadingZero fun c hc radix hmem => ?_
    obtain ⟨rest, hrest⟩ := List.head?_eq_some_iff.1 hc
    have hnone := h.ofLetter?_eq_none hradix hrest
    rw [Radix.ofLetter?_eq_some_iff.2 hmem] at hnone
    cases hnone
  · have hne := (Radix.ne_of_ofLetter? hletter).2
    rw [if_neg hne, if_neg hne, hlead]
    exact .letter (Radix.ofLetter?_eq_some_iff.1 hletter)

/-- Digits do not announce an exponent, and neither does the point. -/
theorem Composed.not_announced (h : n.Composed) :
    ∀ c ∈ n.leadingZero ++ (n.whole ++ n.fractionText), c ∉ n.radix.exponentLetters := by
  have hdigits : ∀ c, n.radix.accepts c = true → c ∉ n.radix.exponentLetters := by
    intro c hc hmem
    rw [Radix.accepts_of_mem_exponentLetters c hmem] at hc
    cases hc
  have hzero : '0' ∉ n.radix.exponentLetters := by cases n.radix <;> decide
  have hpoint : '.' ∉ n.radix.exponentLetters := by cases n.radix <;> decide
  intro c hc
  rcases List.mem_append.1 hc with hc | hc
  · unfold leadingZero at hc
    split at hc
    · next hradix =>
      rw [h.lead_of_leadingZero hradix, List.mem_singleton] at hc
      exact hc ▸ hzero
    · cases hc
  rcases List.mem_append.1 hc with hc | hc
  · exact hdigits c (h.whole c hc)
  · unfold fractionText at hc
    split at hc
    · next digits hsome =>
      rcases List.mem_cons.1 hc with rfl | hc
      · exact hpoint
      · exact hdigits c (h.fraction digits hsome c hc)
    · cases hc

theorem Composed.announced (h : n.Composed) :
    ∀ c ∈ n.exponentText.head?, c ∈ n.radix.exponentLetters := by
  intro c hc
  unfold exponentText at hc
  cases he : n.exponent with
  | none =>
    rw [he] at hc
    cases hc
  | some e =>
    rw [he] at hc
    cases hc
    have hmarker := h.isMarker e he
    have hdigit := h.marker e he
    simp only [Exponent.isMarker, Bool.or_eq_true, decide_eq_true_eq] at hmarker
    rw [Radix.exponentLetters]
    split
    · next hradix =>
      rw [hradix] at hdigit
      rcases hmarker with ((hm | hm) | hm) | hm <;> rw [hm] at hdigit ⊢ <;> revert hdigit <;> decide
    · grind

/-- The layout of a number that was read. -/
def layout (n : Number) (h : n.Composed) : NumberLayout where
  radix := n.radix
  mark := n.mark
  mantissa := n.leadingZero ++ (n.whole ++ n.fractionText)
  exponent := n.exponentText
  isMarked := by
    have hmarked := h.isMarked
    rw [tail] at hmarked
    rw [List.append_assoc, List.append_assoc]
    exact hmarked
  not_announced := h.not_announced
  announced := h.announced

theorem text_layout (h : n.Composed) : (n.layout h).text = n.text := by
  rw [text_eq, lead_eq, tail]
  simp [NumberLayout.text, NumberLayout.body, layout]

theorem mark_append_mantissa_layout (h : n.Composed) :
    (n.layout h).mark ++ (n.layout h).mantissa = n.mantissa := by
  rw [mantissa, lead_eq]
  simp [layout]

end Number

end Lexis
