import Lexis.Proofs.Token.Unquote

/-!
# What bodies denote

Which bytes an escape stands for, and which a body does, is said here without reading either
(`EscapeDenotes`, `BodyDenotes`). To find the value of a body between double quotes is to find what
it denotes, unless it has a double quote in it (`Unquote.readBody_of_bodyDenotes`).
-/

namespace Lexis

/-- The letters that stand for a byte after a backslash, whatever the quotes are. -/
def simpleEscapes : List (Char × UInt8) :=
  [('a', 0x07), ('b', 0x08), ('f', 0x0C), ('n', 0x0A), ('r', 0x0D), ('t', 0x09), ('v', 0x0B),
    ('\x5c', 0x5C)]

/-- What follows the backslash of an escape, and the bytes that the escape stands for, where
`letters` are the letters that stand for one byte. -/
inductive EscapeDenotes (letters : List (Char × UInt8)) : List Char → List UInt8 → Prop
  | simple {c : Char} {byte : UInt8} (hc : (c, byte) ∈ letters) : EscapeDenotes letters [c] [byte]
  | octal {digits : List Char} (hlength : digits.length = 3)
      (hdigits : ∀ d ∈ digits, Text.isOctalDigit d = true)
      (hvalue : Text.digitsValue 8 digits < 256) :
      EscapeDenotes letters digits [(Text.digitsValue 8 digits).toUInt8]
  | byte {digits : List Char} (hlength : digits.length = 2)
      (hdigits : ∀ d ∈ digits, Text.isHexDigit d = true) :
      EscapeDenotes letters ('x' :: digits) [(Text.digitsValue 16 digits).toUInt8]
  /-- The number of a character, which stands for what encodes the character. -/
  | codePoint {letter : Char} {digits : List Char}
      (hletter : letter = 'u' ∧ digits.length = 4 ∨ letter = 'U' ∧ digits.length = 8)
      (hdigits : ∀ d ∈ digits, Text.isHexDigit d = true)
      (hvalue : (Text.digitsValue 16 digits).isValidChar) :
      EscapeDenotes letters (letter :: digits)
        (String.utf8EncodeChar (Char.ofNat (Text.digitsValue 16 digits)))

/-- A body between quotes of the given kind, and the bytes that it stands for. A character outside
of escapes stands for itself. -/
inductive BodyDenotes (quote : Char) (letters : List (Char × UInt8)) :
    List Char → List UInt8 → Prop
  | nil : BodyDenotes quote letters [] []
  | plain {c : Char} {rest : List Char} {bytes : List UInt8} (hquote : c ≠ quote) (hend : c ≠ '\n')
      (hslash : c ≠ '\x5c') (hrest : BodyDenotes quote letters rest bytes) :
      BodyDenotes quote letters (c :: rest) (String.utf8EncodeChar c ++ bytes)
  | escape {text rest : List Char} {first bytes : List UInt8}
      (htext : EscapeDenotes letters text first) (hrest : BodyDenotes quote letters rest bytes) :
      BodyDenotes quote letters ('\x5c' :: text ++ rest) (first ++ bytes)

theorem isSimple_of_mem_simpleEscapes {c : Char} {byte : UInt8} (h : (c, byte) ∈ simpleEscapes) :
    Escape.isSimple c = true ∧ Unquote.simpleByte? c = some byte := by
  simp only [simpleEscapes, List.mem_cons, Prod.mk.injEq, List.not_mem_nil, or_false] at h
  rcases h with ⟨rfl, rfl⟩ | ⟨rfl, rfl⟩ | ⟨rfl, rfl⟩ | ⟨rfl, rfl⟩ | ⟨rfl, rfl⟩ | ⟨rfl, rfl⟩ |
    ⟨rfl, rfl⟩ | ⟨rfl, rfl⟩ <;> exact ⟨rfl, rfl⟩

theorem exists_mem_simpleEscapes {c : Char} (h : Escape.isSimple c = true) :
    ∃ byte, (c, byte) ∈ simpleEscapes := by
  have hmem : c ∈ simpleEscapes.map Prod.fst := Escape.isSimple_iff.1 h
  obtain ⟨⟨_, byte⟩, hpair, rfl⟩ := List.mem_map.1 hmem
  exact ⟨byte, hpair⟩

/-- What denotes something is written as an escape has to be. -/
theorem EscapeDenotes.escapeText {text : List Char} {bytes : List UInt8}
    (h : EscapeDenotes simpleEscapes text bytes) (quote : Char) : EscapeText quote text := by
  cases h with
  | simple hc => exact .simple (isSimple_of_mem_simpleEscapes hc).1
  | octal hlength hdigits => exact .octal hlength hdigits
  | byte hlength hdigits => exact .hexadecimal rfl hlength hdigits
  | codePoint hletter hdigits =>
    rcases hletter with ⟨rfl, hlength⟩ | ⟨rfl, hlength⟩
    · exact .hexadecimal rfl hlength hdigits
    · exact .hexadecimal rfl hlength hdigits

theorem BodyDenotes.newline_notMem {quote : Char} {body : List Char} {bytes : List UInt8}
    (h : BodyDenotes quote simpleEscapes body bytes) : '\n' ∉ body := by
  induction h with
  | nil => simp
  | plain _ hend _ _ ih => simp [ih, Ne.symm hend]
  | escape htext _ ih => simp [ih, (htext.escapeText '\x22').newline_notMem (by decide)]

/-! ## Reading what a body denotes -/

namespace Unquote

theorem readEscape_of_escapeDenotes {text : List Char} {bytes : List UInt8}
    (h : EscapeDenotes simpleEscapes text bytes) (rest : List Char) :
    readEscape (text ++ rest) = .ok (bytes, rest) := by
  cases h with
  | simple hc =>
    have hbyte := (isSimple_of_mem_simpleEscapes hc).2
    rw [List.cons_append, readEscape, hbyte]
    rfl
  | octal hlength hdigits hvalue => rw [readEscape_octal hlength hdigits, if_pos hvalue]
  | byte hlength hdigits => exact readEscape_byte hlength hdigits rest
  | codePoint hletter hdigits hvalue => rw [readEscape_codePoint hletter hdigits, if_pos hvalue]

/-- An escape that denotes something is written without double quotes. -/
theorem quote_notMem_of_escapeDenotes {text : List Char} {bytes : List UInt8}
    (h : EscapeDenotes simpleEscapes text bytes) : '\x22' ∉ text := by
  have hoctal : ∀ {digits : List Char}, (∀ d ∈ digits, Text.isOctalDigit d = true) →
      '\x22' ∉ digits := fun hdigits hmem => absurd (hdigits _ hmem) (by decide)
  have hhex : ∀ {digits : List Char}, (∀ d ∈ digits, Text.isHexDigit d = true) →
      '\x22' ∉ digits := fun hdigits hmem => absurd (hdigits _ hmem) (by decide)
  cases h with
  | simple hc =>
    have hbyte := (isSimple_of_mem_simpleEscapes hc).1
    intro hmem
    rw [← List.mem_singleton.1 hmem] at hbyte
    exact absurd hbyte (by decide)
  | octal _ hdigits => exact hoctal hdigits
  | byte _ hdigits => simp [hhex hdigits]
  | codePoint hletter hdigits =>
    rcases hletter with ⟨rfl, -⟩ | ⟨rfl, -⟩
    · simp [hhex hdigits]
    · simp [hhex hdigits]

/-- Between double quotes a body is found to have the bytes that it denotes, up to a double quote
that stands in it. -/
theorem readBody_of_bodyDenotes {quote : Char} {body : List Char} {bytes : List UInt8}
    (h : BodyDenotes quote simpleEscapes body bytes) :
    readBody body = if '\x22' ∈ body then .error .unescapedQuote else .ok bytes := by
  induction h with
  | nil => exact readBody_nil
  | @plain c rest bytes hquote hend hslash hrest ih =>
    by_cases hc : c = '\x22'
    · subst hc
      rw [readBody_quote, if_pos List.mem_cons_self]
    · have hmem : '\x22' ∈ c :: rest ↔ '\x22' ∈ rest := by simp [Ne.symm hc]
      rw [readBody_plain hc hslash, ih, if_congr hmem rfl rfl]
      split
      · rfl
      · rfl
  | @escape text rest first bytes htext hrest ih =>
    have hmem : '\x22' ∈ '\x5c' :: text ++ rest ↔ '\x22' ∈ rest := by
      simp [quote_notMem_of_escapeDenotes htext]
    rw [List.cons_append, readBody_escape_of_ok (readEscape_of_escapeDenotes htext rest), ih,
      ← List.cons_append, if_congr hmem rfl rfl]
    split
    · rfl
    · rfl

/-- A literal between double quotes has the text as its value that its body encodes, unless a double
quote stands in the body. -/
theorem unquote_of_bodyDenotes {quote : Char} {body : List Char} {bytes : List UInt8}
    {value : String} (h : BodyDenotes quote simpleEscapes body bytes)
    (hvalue : String.fromUTF8? bytes.toByteArray = some value) :
    unquote ('\x22' :: body ++ ['\x22']) =
      if '\x22' ∈ body then .error .unescapedQuote else .ok value := by
  rw [unquote_quoted h.newline_notMem, readBody_of_bodyDenotes h]
  split
  · rfl
  · show ofBytes bytes = _
    rw [ofBytes, hvalue]

end Unquote

end Lexis
