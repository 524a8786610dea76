import Mathlib.Algebra.Group.Nat.Defs
import Lexis.Proofs.Token.Unquote

/-!
# Escapes in numbers of limited size

The number of an escape is built up digit by digit, in 32 bits, and a byte is cut out of it where
one is asked for. `Unquote.readEscapeWithin?` does so and stops where a number does not fit. It
never has to (`Unquote.readEscapeWithin?_eq`): the longest escapes have eight hexadecimal digits.
-/

namespace Lexis.Unquote

/-- A number of 32 bits. -/
def word? (n : Nat) : Option Nat :=
  if n < 2 ^ 32 then some n else none

/-- A number of 8 bits. -/
def byte? (n : Nat) : Option UInt8 :=
  if n < 2 ^ 8 then some n.toUInt8 else none

/-- Takes up to `width` digits into a number one by one. A digit that is missing leaves no number,
and one that makes the number too large no result. -/
def addDigits? (isDigit : Char → Bool) (base : Nat) :
    Nat → Nat → List Char → Option (Option (Nat × List Char))
  | 0, value, text => some (some (value, text))
  | _ + 1, _, [] => some none
  | width + 1, value, c :: rest =>
    if isDigit c then do
      let shifted ← word? (value * base)
      addDigits? isDigit base width (← word? (shifted + Text.digitValue c)) rest
    else some none

/-- Reads an escape with numbers of limited size. -/
def readEscapeWithin? : List Char → Option (Except UnquoteError (List UInt8 × List Char))
  | [] => some (.error (.incompleteEscape '\x5c'))
  | escape :: rest =>
    match simpleByte? escape with
    | some byte => some (.ok ([byte], rest))
    | none =>
      if Text.isOctalDigit escape then do
        match ← addDigits? Text.isOctalDigit 8 2 (Text.digitValue escape) rest with
        | some (value, rest) =>
          return match byte? value with
            | some byte => .ok ([byte], rest)
            | none => .error (.octalOutOfRange value)
        | none => return .error (.incompleteEscape escape)
      else if escape = 'x' then do
        match ← addDigits? Text.isHexDigit 16 2 0 rest with
        | some (value, rest) => return .ok ([← byte? value], rest)
        | none => return .error (.incompleteEscape escape)
      else if escape = 'u' || escape = 'U' then do
        match ← addDigits? Text.isHexDigit 16 (if escape = 'u' then 4 else 8) 0 rest with
        | some (value, rest) =>
          if value.isValidChar then
            return .ok (String.utf8EncodeChar (Char.ofNat value), rest)
          else return .error (.invalidCodePoint value)
        | none => return .error (.incompleteEscape escape)
      else some (.error (.unknownEscape escape))

/-! ## Digits are small -/

theorem digitValue_lt_of_isOctalDigit {c : Char} (h : Text.isOctalDigit c = true) :
    Text.digitValue c < 8 := by
  simp only [Text.isOctalDigit, Bool.and_eq_true, decide_eq_true_eq] at h
  have hlow : 48 ≤ c.toNat := h.1
  have hhigh : c.toNat ≤ 55 := h.2
  have hdigit : c.isDigit = true := by
    simp only [Char.isDigit, Bool.and_eq_true, decide_eq_true_eq]
    exact ⟨h.1, Nat.le_trans hhigh (by decide)⟩
  have hzero : '0'.toNat = 48 := rfl
  rw [Text.digitValue, if_pos hdigit]
  omega

theorem digitValue_lt_of_isHexDigit {c : Char} (h : Text.isHexDigit c = true) :
    Text.digitValue c < 16 := by
  have hzero : '0'.toNat = 48 := rfl
  have hlower : 'a'.toNat = 97 := rfl
  have hupper : 'A'.toNat = 65 := rfl
  simp only [Text.isHexDigit, Bool.or_eq_true, Bool.and_eq_true, decide_eq_true_eq] at h
  rw [Text.digitValue]
  split
  · next hdigit =>
    simp only [Char.isDigit, Bool.and_eq_true, decide_eq_true_eq] at hdigit
    have hhigh : c.toNat ≤ 57 := hdigit.2
    omega
  · next hdigit =>
    rcases h with (hc | ⟨hlow, hhigh⟩) | ⟨hlow, hhigh⟩
    · exact absurd hc hdigit
    · have hhigh : c.toNat ≤ 102 := hhigh
      rw [if_pos hlow]
      omega
    · have hhigh : c.toNat ≤ 70 := hhigh
      have hnot : ¬ 'a' ≤ c := by
        intro hle
        have hle : 97 ≤ c.toNat := hle
        omega
      rw [if_neg hnot]
      omega

/-! ## No number is too large -/

theorem word?_of_lt {n : Nat} (h : n < 2 ^ 32) : word? n = some n :=
  if_pos h

variable {isDigit : Char → Bool} {base : Nat}

/-- Where the digits that are still to come leave room, they are taken as by looking at all of them
first. -/
theorem addDigits?_eq (hdigit : ∀ c, isDigit c = true → Text.digitValue c < base)
    {width value : Nat} (hroom : (value + 1) * base ^ width ≤ 2 ^ 32) (text : List Char) :
    addDigits? isDigit base width value text =
      some (if (text.take width).length = width ∧ (text.take width).all isDigit then
        some ((text.take width).foldl (fun value c => value * base + Text.digitValue c) value,
          text.drop width)
      else none) := by
  induction width generalizing value text with
  | zero => simp [addDigits?]
  | succ width ih =>
    cases text with
    | nil => simp [addDigits?]
    | cons c rest =>
      by_cases hc : isDigit c = true
      · have hlt := hdigit c hc
        -- one more digit takes one of the places that were left
        have hnext : (value * base + Text.digitValue c + 1) * base ^ width ≤ 2 ^ 32 := by
          have hle : value * base + Text.digitValue c + 1 ≤ (value + 1) * base := by
            rw [Nat.add_one_mul]
            omega
          calc (value * base + Text.digitValue c + 1) * base ^ width
              ≤ (value + 1) * base * base ^ width := Nat.mul_le_mul_right _ hle
            _ = (value + 1) * base ^ (width + 1) := by rw [Nat.pow_succ', Nat.mul_assoc]
            _ ≤ 2 ^ 32 := hroom
        have hpos : 1 ≤ base ^ width := Nat.pow_pos (by omega)
        have hfits : value * base + Text.digitValue c < 2 ^ 32 := by
          have := Nat.le_trans (Nat.le_mul_of_pos_right _ hpos) hnext
          omega
        rw [addDigits?, if_pos hc, word?_of_lt (by omega)]
        simp only [Option.bind_eq_bind, Option.bind_some, word?_of_lt hfits, ih hnext]
        simp [hc]
      · rw [addDigits?, if_neg hc]
        simp [hc]

/-- From zero, taking digits one by one finds the number that they stand for. -/
theorem addDigits?_zero (hdigit : ∀ c, isDigit c = true → Text.digitValue c < base) {width : Nat}
    (hroom : base ^ width ≤ 2 ^ 32) (text : List Char) :
    addDigits? isDigit base width 0 text = some (takeDigits? isDigit base width text) := by
  rw [addDigits?_eq hdigit (by omega)]
  rfl

/-- Two hexadecimal digits are a byte. -/
theorem byte?_of_takeDigits? {text rest : List Char} {value : Nat}
    (h : takeDigits? Text.isHexDigit 16 2 text = some (value, rest)) :
    byte? value = some value.toUInt8 := by
  obtain ⟨digits, -, hlength, hdigits, rfl⟩ := of_takeDigits?_eq_some h
  obtain ⟨first, second, rfl⟩ := List.length_eq_two.1 hlength
  have hfirst := digitValue_lt_of_isHexDigit (hdigits first (by simp))
  have hsecond := digitValue_lt_of_isHexDigit (hdigits second (by simp))
  have hvalue : Text.digitsValue 16 [first, second] < 2 ^ 8 := by
    show (0 * 16 + Text.digitValue first) * 16 + Text.digitValue second < 2 ^ 8
    omega
  exact if_pos hvalue

/-- The first digit of an octal escape tells that it is one, and two more are to follow. -/
theorem addDigits?_octal {escape : Char} (h : Text.isOctalDigit escape = true) (rest : List Char) :
    addDigits? Text.isOctalDigit 8 2 (Text.digitValue escape) rest =
      some (takeDigits? Text.isOctalDigit 8 3 (escape :: rest)) := by
  have hescape := digitValue_lt_of_isOctalDigit h
  rw [addDigits?_eq @digitValue_lt_of_isOctalDigit (by omega)]
  simp [takeDigits?, h, Text.digitsValue]

/-- Reading an escape, no number is ever too large for the bits that it is kept in, and none of two
hexadecimal digits too large for a byte. -/
theorem readEscapeWithin?_eq (text : List Char) :
    readEscapeWithin? text = some (readEscape text) := by
  have hhex (width : Nat) (hroom : 16 ^ width ≤ 2 ^ 32) (rest : List Char) :
      addDigits? Text.isHexDigit 16 width 0 rest =
        some (takeDigits? Text.isHexDigit 16 width rest) :=
    addDigits?_zero @digitValue_lt_of_isHexDigit hroom rest
  cases text with
  | nil => rfl
  | cons escape rest =>
    rw [readEscapeWithin?, readEscape]
    cases simpleByte? escape with
    | some byte => rfl
    | none =>
      dsimp only
      by_cases hoctal : Text.isOctalDigit escape = true
      · rw [if_pos hoctal, if_pos hoctal, addDigits?_octal hoctal]
        cases takeDigits? Text.isOctalDigit 8 3 (escape :: rest) with
        | none => rfl
        | some taken =>
          obtain ⟨value, after⟩ := taken
          by_cases hvalue : value < 256
          · simp [byte?, hvalue]
          · simp [byte?, hvalue]
      rw [if_neg hoctal, if_neg hoctal]
      by_cases hx : escape = 'x'
      · rw [if_pos hx, if_pos hx, hhex 2 (by decide)]
        cases htaken : takeDigits? Text.isHexDigit 16 2 rest with
        | none => rfl
        | some taken =>
          obtain ⟨value, after⟩ := taken
          simp [byte?_of_takeDigits? htaken]
      rw [if_neg hx, if_neg hx]
      have hwidth : 16 ^ (if escape = 'u' then 4 else 8) ≤ 2 ^ 32 := by
        split
        · decide
        · decide
      rw [hhex _ hwidth]
      split
      · cases takeDigits? Text.isHexDigit 16 (if escape = 'u' then 4 else 8) rest with
        | none => rfl
        | some taken =>
          obtain ⟨value, after⟩ := taken
          by_cases hvalue : value.isValidChar
          · simp [hvalue]
          · simp [hvalue]
      · rfl

end Lexis.Unquote
