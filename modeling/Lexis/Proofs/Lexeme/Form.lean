import Lexis.Proofs.Lexeme.Extent
import Lexis.Proofs.Lexeme.NumberLiteral

/-!
# The forms of lexemes

`Lexeme.Form mode c rest lexeme` lists what a lexeme can be that starts with the character `c`,
where `rest` follows: which characters it takes to be of a form, which feature has to be on, and
what it is read from. The lexeme that is read is always of one of these forms (`Lexeme.form_read`).
The three forms that stand between marks are one, whose marks are given by a `Quoting`.
-/

namespace Lexis

/-! ## Literals between marks -/

/-- The marks between which a literal can stand. -/
inductive Quoting where
  | double
  | single
  | backticks
deriving DecidableEq, Repr

namespace Quoting

/-- The mark at either end of the literal. -/
def mark : Quoting → Char
  | double => '\x22'
  | single => '\x27'
  | backticks => '\x60'

/-- The feature that has such literals recognised. -/
def feature : Quoting → Feature
  | double => .strings
  | single => .chars
  | backticks => .rawStrings

/-- The kind of such a literal. -/
def lexemeKind : Quoting → Kind
  | double => .string
  | single => .char
  | backticks => .rawString

/-- The literal that an opening mark starts, where `rest` follows the mark. -/
def read (quoting : Quoting) (rest : List SourceChar) : Lexeme :=
  match quoting with
  | double => .string (.read '\x22' rest)
  | single => .char (.read '\x27' rest)
  | backticks => .rawString (.read Lexeme.backtick rest)

theorem kind_read (quoting : Quoting) (rest : List SourceChar) :
    (quoting.read rest).kind = quoting.lexemeKind := by
  cases quoting <;> rfl

theorem eq_of_lexemeKind_eq {quoting other : Quoting}
    (h : quoting.lexemeKind = other.lexemeKind) : quoting = other := by
  cases quoting <;> cases other <;> first | rfl | cases h

end Quoting

/-! ## Forms -/

/-- What a lexeme that starts with `c` can be. -/
inductive Lexeme.Form (mode : Mode) (c : SourceChar) (rest : List SourceChar) : Lexeme → Prop
  | identifier (hstart : isIdentifierStart c.char = true)
      (hmode : mode.has .identifiers = true) :
      Form mode c rest (.identifier (c :: rest.takeWhile fun c => isIdentifierPart c.char))
  | number (hdigit : c.char.isDigit = true)
      (hmode : (mode.has .integers || mode.has .floats) = true) :
      Form mode c rest (.number (.read (mode.has .floats) (c :: rest)))
  /-- A number that starts with its radix point. -/
  | point (hc : c = .valid '.') (hdigit : rest.head?.any (·.char.isDigit) = true)
      (hmode : mode.has .floats = true) : Form mode c rest (.number (.read true (c :: rest)))
  | quoted (quoting : Quoting) (hc : c = .valid quoting.mark)
      (hmode : mode.has quoting.feature = true) : Form mode c rest (quoting.read rest)
  | lineComment {more : List SourceChar} (hc : c = .valid '/') (hrest : rest = .valid '/' :: more)
      (hmode : mode.has .comments = true) : Form mode c rest (.lineComment (.read lineEnd rest))
  | blockComment {more : List SourceChar} (hc : c = .valid '/')
      (hrest : rest = .valid '*' :: more) (hmode : mode.has .comments = true) :
      Form mode c rest (.blockComment (.read blockEnd more))
  | single : Form mode c rest (.single c)

namespace Lexeme

theorem form_read (mode : Mode) (c : SourceChar) (rest : List SourceChar) :
    Form mode c rest (read mode c rest) := by
  unfold read
  split
  · next hstart =>
    split
    · next hmode => exact .identifier hstart hmode
    · exact .single
  split
  · next hdigit =>
    split
    · next hmode => exact .number hdigit hmode
    · exact .single
  split
  · next h =>
    exact .quoted .double (eq_valid_of_test h (by decide)) (Bool.and_eq_true_iff.1 h).2
  split
  · next h =>
    exact .quoted .single (eq_valid_of_test h (by decide)) (Bool.and_eq_true_iff.1 h).2
  split
  · next h =>
    exact .quoted .backticks (eq_valid_of_test h (by decide)) (Bool.and_eq_true_iff.1 h).2
  split
  · next h =>
    rw [Bool.and_eq_true] at h
    exact .point (eq_valid_of_test h.1 (by decide)) h.2 (Bool.and_eq_true_iff.1 h.1).2
  split
  · next h =>
    have hc := eq_valid_of_test h (by decide)
    have hmode := (Bool.and_eq_true_iff.1 h).2
    split
    · exact .lineComment hc rfl hmode
    · exact .blockComment hc rfl hmode
    · exact .single
  · exact .single

theorem read_of_isIdentifierStart {mode : Mode} {c : SourceChar}
    (hstart : isIdentifierStart c.char = true) (hmode : mode.has .identifiers = true)
    (rest : List SourceChar) :
    read mode c rest = .identifier (c :: rest.takeWhile fun c => isIdentifierPart c.char) := by
  unfold read
  rw [if_pos hstart, if_pos hmode]

theorem not_isIdentifierStart_of_isDigit {c : Char} (h : c.isDigit = true) :
    isIdentifierStart c = false := by
  have hbounds := Char.isDigit_iff_toNat.1 h
  have hmem : c.toNat ∈ [48, 49, 50, 51, 52, 53, 54, 55, 56, 57] := by
    have hlow : 48 ≤ c.toNat := hbounds.1
    have hhigh : c.toNat ≤ 57 := hbounds.2
    simp only [List.mem_cons, List.not_mem_nil, or_false]
    omega
  have hall : ∀ n ∈ [48, 49, 50, 51, 52, 53, 54, 55, 56, 57],
      isIdentifierStart (Char.ofNat n) = false := by
    decide +kernel
  rw [← Char.ofNat_toNat c]
  exact hall _ hmem

/-- A digit starts a number. -/
theorem read_of_isDigit {mode : Mode} {c : SourceChar} {rest : List SourceChar}
    (hdigit : c.char.isDigit = true)
    (hmode : (mode.has .integers || mode.has .floats) = true) :
    read mode c rest = .number (.read (mode.has .floats) (c :: rest)) := by
  unfold read
  rw [if_neg (by simp [not_isIdentifierStart_of_isDigit hdigit]), if_pos hdigit, if_pos hmode]

/-- A point starts a number where there are floats and a digit follows, and otherwise stands for
itself. -/
theorem read_point (mode : Mode) (rest : List SourceChar) :
    read mode (.valid '.') rest =
      if mode.has .floats && rest.head?.any (·.char.isDigit) then
        .number (.read true (.valid '.' :: rest))
      else .single (.valid '.') := by
  have hstart : isIdentifierStart '.' = false := by decide +kernel
  have hdigit : Char.isDigit '.' = false := rfl
  simp [read, SourceChar.char, hstart, hdigit]

/-- A mark starts a literal where such literals are recognised. -/
theorem read_mark {mode : Mode} (quoting : Quoting) (hmode : mode.has quoting.feature = true)
    (rest : List SourceChar) : read mode (.valid quoting.mark) rest = quoting.read rest := by
  have hstart : isIdentifierStart quoting.mark = false := by
    cases quoting <;> decide +kernel
  have hdigit : quoting.mark.isDigit = false := by
    cases quoting <;> rfl
  unfold read
  rw [SourceChar.char_valid, if_neg (by simp [hstart]), if_neg (by simp [hdigit])]
  cases quoting with
  | double => exact if_pos (Bool.and_eq_true_iff.2 ⟨rfl, hmode⟩)
  | single => exact if_pos (Bool.and_eq_true_iff.2 ⟨rfl, hmode⟩)
  | backticks => exact if_pos (Bool.and_eq_true_iff.2 ⟨rfl, hmode⟩)

/-- A slash starts a comment where comments are recognised and a second slash or an asterisk
follows, and otherwise stands for itself. -/
theorem read_slash (mode : Mode) (rest : List SourceChar) :
    read mode (.valid '/') rest =
      if mode.has .comments then
        match rest with
        | .valid '/' :: _ => .lineComment (.read lineEnd rest)
        | .valid '*' :: more => .blockComment (.read blockEnd more)
        | _ => .single (.valid '/')
      else .single (.valid '/') := by
  have hstart : isIdentifierStart '/' = false := by decide +kernel
  have hdigit : Char.isDigit '/' = false := rfl
  have hquoted (quote : Char) (feature : Feature) (h : '/' ≠ quote) :
      (decide ('/' = quote) && mode.has feature) = false := by
    rw [decide_eq_false h, Bool.false_and]
  unfold read
  rw [SourceChar.char_valid, hstart, hdigit, hquoted _ _ (by decide), hquoted _ _ (by decide),
    hquoted _ _ (by decide), hquoted _ _ (by decide), decide_eq_true rfl, Bool.true_and,
    Bool.false_and]
  rfl

/-- A character that stands for itself goes on doing so with other text behind it, unless that is
what makes a point the start of a number, or a slash the start of a comment. -/
theorem read_single_of_head {mode : Mode} {c : SourceChar} {rest other : List SourceChar}
    (h : read mode c rest = .single c)
    (hdigit : other.head?.any (·.char.isDigit) = true → rest.head?.any (·.char.isDigit) = true)
    (hmark : ∀ d ∈ other.head?, d = .valid '/' ∨ d = .valid '*' → d ∈ rest.head?) :
    read mode c other = .single c := by
  -- any other form in front of the second text would have been one in front of the first
  have hform := form_read mode c other
  generalize read mode c other = l at hform ⊢
  cases hform with
  | identifier hstart hmode =>
    rw [read_of_isIdentifierStart hstart hmode] at h
    cases h
  | number hnumber hmode =>
    rw [read_of_isDigit hnumber hmode] at h
    cases h
  | point hc hnext hmode =>
    rw [hc, read_point, hmode, hdigit hnext, Bool.and_true, if_pos rfl] at h
    cases h
  | quoted quoting hc hmode =>
    rw [hc, read_mark quoting hmode] at h
    cases quoting <;> cases h
  | lineComment hc hother hmode =>
    obtain ⟨more, rfl⟩ := List.head?_eq_some_iff.1 (hmark _ (by rw [hother]; rfl) (.inl rfl))
    rw [hc, read_slash, if_pos hmode] at h
    cases h
  | blockComment hc hother hmode =>
    obtain ⟨more, rfl⟩ := List.head?_eq_some_iff.1 (hmark _ (by rw [hother]; rfl) (.inr rfl))
    rw [hc, read_slash, if_pos hmode] at h
    cases h
  | single => rfl

/-- A number is not of a kind that other forms have. -/
theorem kind_number (n : Number) :
    (number n).kind = .integer ∨ (number n).kind = .float := by
  show n.kind = _ ∨ n.kind = _
  unfold Number.kind
  split
  · exact .inr rfl
  · exact .inl rfl

variable {mode : Mode} {c : SourceChar} {rest : List SourceChar}

/-- Only what starts with such a mark is a literal between two of them. -/
theorem read_of_kind_eq (quoting : Quoting)
    (h : (read mode c rest).kind = quoting.lexemeKind) :
    c = .valid quoting.mark ∧ read mode c rest = quoting.read rest := by
  have hform := form_read mode c rest
  generalize read mode c rest = l at h hform ⊢
  cases hform with
  | quoted other hc _ =>
    rw [other.kind_read] at h
    cases Quoting.eq_of_lexemeKind_eq h
    exact ⟨hc, rfl⟩
  | number _ _ | point _ _ _ =>
    rcases kind_number _ with hk | hk <;> rw [hk] at h <;> cases quoting <;> cases h
  | _ => cases quoting <;> cases h

/-- Only what starts with a digit is a number, or with a radix point where there are floats. -/
theorem read_of_kind_number
    (h : (read mode c rest).kind = .integer ∨ (read mode c rest).kind = .float) :
    read mode c rest = .number (.read (mode.has .floats) (c :: rest)) ∧
      (c.char.isDigit = true ∨
        c = .valid '.' ∧ rest.head?.any (·.char.isDigit) = true ∧ mode.has .floats = true) := by
  have hform := form_read mode c rest
  generalize read mode c rest = l at h hform ⊢
  cases hform with
  | number hdigit _ => exact ⟨rfl, .inl hdigit⟩
  | point hc hdigit hmode =>
    rw [hmode]
    exact ⟨rfl, .inr ⟨hc, hdigit, rfl⟩⟩
  | quoted quoting _ _ =>
    rw [quoting.kind_read] at h
    cases quoting <;> rcases h with h | h <;> cases h
  | _ => rcases h with h | h <;> cases h

end Lexeme

end Lexis
