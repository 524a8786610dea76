import Lexis.Lexeme.Enclosed
import Lexis.Lexeme.Mode
import Lexis.Lexeme.Number
import Lexis.Lexeme.Quoted
import Lexis.Unicode.Alphabetic
import Lexis.Unicode.DecimalDigit

/-!
# Lexemes

A lexeme is the longest stretch of source that belongs together by its first characters. Which
lexeme starts at a place depends on the mode and on the text from there on, and on nothing before.
-/

namespace Lexis

/-- A character that an identifier can start with. -/
def isIdentifierStart (c : Char) : Bool :=
  c = '_' || Unicode.isAlphabetic c

/-- A character that an identifier can go on with. -/
def isIdentifierPart (c : Char) : Bool :=
  c = '_' || Unicode.isAlphabetic c || Unicode.isDecimalDigit c

/-- A stretch of source that belongs together. -/
inductive Lexeme where
  | identifier (chars : List SourceChar)
  | number (n : Number)
  /-- A literal between double quotes. -/
  | string (q : Quoted)
  /-- A literal between apostrophes. -/
  | char (q : Quoted)
  /-- A literal between backticks, given by what follows the first. -/
  | rawString (e : Enclosed)
  /-- A comment up to the end of its line, given by what follows its first slash. -/
  | lineComment (e : Enclosed)
  /-- A comment between a slash with an asterisk and an asterisk with a slash, given by what follows
  the first asterisk. -/
  | blockComment (e : Enclosed)
  /-- A character that stands for itself. -/
  | single (c : SourceChar)
deriving DecidableEq, Repr

namespace Lexeme

/-- The mark that ends a raw string. -/
def backtick : List Char := ['\x60']

/-- The mark before which a line comment ends. -/
def lineEnd : List Char := ['\n']

/-- The mark that ends a block comment. -/
def blockEnd : List Char := ['*', '/']

/-- The lexeme that a source with first character `c` starts with. -/
def read (mode : Mode) (c : SourceChar) (rest : List SourceChar) : Lexeme :=
  if isIdentifierStart c.char then
    if mode.has .identifiers then
      .identifier (c :: rest.takeWhile fun c => isIdentifierPart c.char)
    else .single c
  else if c.char.isDigit then
    if mode.has .integers || mode.has .floats then .number (.read (mode.has .floats) (c :: rest))
    else .single c
  else if c.char = '\x22' && mode.has .strings then .string (.read '\x22' rest)
  else if c.char = '\x27' && mode.has .chars then .char (.read '\x27' rest)
  else if c.char = '\x60' && mode.has .rawStrings then .rawString (.read backtick rest)
  else if c.char = '.' && mode.has .floats && rest.head?.any (·.char.isDigit) then
    .number (.read true (c :: rest))
  else if c.char = '/' && mode.has .comments then
    match rest with
    | .valid '/' :: _ => .lineComment (.read lineEnd rest)
    | .valid '*' :: more => .blockComment (.read blockEnd more)
    | _ => .single c
  else .single c

/-- What kind of lexeme it is. -/
def kind : Lexeme → Kind
  | identifier _ => .identifier
  | number n => n.kind
  | string _ => .string
  | char _ => .char
  | rawString _ => .rawString
  | lineComment _ => .comment
  | blockComment _ => .comment
  | single c => .rune c.char

/-- The characters of a lexeme. -/
def chars : Lexeme → List SourceChar
  | identifier chars => chars
  | number n => n.text.map .valid
  | string q => q.chars
  | char q => q.chars
  | rawString e => .valid '\x60' :: e.charsThrough backtick
  | lineComment e => .valid '/' :: e.body
  | blockComment e => .valid '/' :: .valid '*' :: e.charsThrough blockEnd
  | single c => [c]

/-- The text of a lexeme. -/
def text (l : Lexeme) : List Char :=
  plainText l.chars

/-- Whether the lexeme is a comment of either form. -/
def isComment : Lexeme → Bool
  | lineComment _ => true
  | blockComment _ => true
  | _ => false

/-! ## No lexeme is empty -/

/-- A character that is not the replacement character was not replaced. -/
theorem eq_valid_of_char_eq {c : SourceChar} {d : Char} (h : c.char = d)
    (hd : d ≠ SourceChar.replacement) : c = .valid d := by
  cases c with
  | valid c => rw [← h]; rfl
  | replaced bytes => exact absurd h.symm hd

private theorem number_text_of_digit (floats : Bool) {c : SourceChar} (rest : List SourceChar)
    (h : c.char.isDigit = true) : (Number.read floats (c :: rest)).text ≠ [] := by
  have hc : c = .valid c.char := by
    refine eq_valid_of_char_eq rfl fun he => ?_
    rw [he] at h
    exact absurd h (by decide)
  generalize c.char = d at h hc
  subst hc
  have hlead : (Radix.ofLead (.valid d :: rest)).2 ++
      (Radix.ofLead (.valid d :: rest)).1.run
        ((SourceChar.valid d :: rest).drop (Radix.ofLead (.valid d :: rest)).2.length) ≠ [] := by
    unfold Radix.ofLead
    split
    · split <;> simp
    · simp
    · simp [Radix.run, Radix.accepts, Radix.isDigit, SourceChar.char, h, plainText]
  cases floats <;> simp_all [Number.read, Number.text, Number.mantissa]

private theorem number_text_of_point (rest : List SourceChar) :
    (Number.read true (.valid '.' :: rest)).text ≠ [] := by
  have hrun : Radix.decimal.run (.valid '.' :: rest) = [] := by
    have h : Radix.decimal.accepts '.' = false := by decide
    simp [Radix.run, SourceChar.char, h, plainText]
  simp [Number.read, Radix.ofLead, hrun, Number.text, Number.mantissa, Number.fractionText,
    Number.readFraction?]

/-- A lexeme has at least one character. -/
theorem chars_read_ne_nil (mode : Mode) (c : SourceChar) (rest : List SourceChar) :
    (read mode c rest).chars ≠ [] := by
  unfold read
  split
  · split <;> simp [chars]
  split
  · next h =>
    split
    · simpa [chars] using number_text_of_digit _ rest h
    · simp [chars]
  split
  · simp [chars, Quoted.chars]
  split
  · simp [chars, Quoted.chars]
  split
  · simp [chars]
  split
  · next h =>
    have hc : c = .valid '.' := by
      simp only [Bool.and_eq_true, decide_eq_true_eq] at h
      exact eq_valid_of_char_eq h.1.1 (by decide)
    subst hc
    simpa [chars] using number_text_of_point rest
  split
  · split <;> simp [chars]
  · simp [chars]

end Lexeme

end Lexis
