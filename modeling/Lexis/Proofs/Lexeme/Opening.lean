import Lexis.Proofs.Lexeme.Form
import Lexis.Proofs.Lexeme.Gap
import Lexis.Proofs.Lexeme.Mode

/-!
# What a text opens with

Of which kind the lexeme at the start of a text is, is settled by the mode and the first character
or two. `Mode.opensIdentifier` and its like say what has to stand there for each kind, and a lexeme
is of a kind exactly where that is so (`Lexeme.kind_eq_identifier_iff` and its like). Where nothing
of the sort stands there, the first character is a lexeme by itself (`Lexeme.read_eq_single`).
-/

namespace Lexis

namespace Mode

variable (mode : Mode) (text : List Char)

/-- A letter or an underscore, where identifiers are recognised. -/
def opensIdentifier : Bool :=
  mode.has .identifiers && text.head?.any isIdentifierStart

/-- A digit, where numbers are recognised, or a point and a digit, where floats are. -/
def opensNumber : Bool :=
  (mode.has .integers || mode.has .floats) && text.head?.any Char.isDigit ||
    mode.has .floats && text.head? == some '.' && (text.drop 1).head?.any Char.isDigit

/-- A quote, where literals between such quotes are recognised. -/
def opensQuoted (feature : Feature) (quote : Char) : Bool :=
  mode.has feature && text.head? == some quote

/-- A slash and a second slash or an asterisk, where comments are recognised. -/
def opensComment : Bool :=
  mode.has .comments && (['/', '/'].isPrefixOf text || ['/', '*'].isPrefixOf text)

/-- Anything that a scan tells of as more than a single character. -/
def opens : Bool :=
  mode.opensIdentifier text || mode.opensNumber text || mode.opensQuoted text .strings '\x22' ||
    mode.opensQuoted text .chars '\x27' || mode.opensQuoted text .rawStrings '\x60' ||
    mode.opensComment text && !mode.has .skipComments

/-- The bits of a mode that make a difference. Bits that belong to no feature make none, and where
there are floats, neither does the one for integers. -/
def effective : Mode :=
  ⟨mode.bits &&&
    (ofFeatures (Feature.all.filter fun f => f != .integers || !mode.has .floats)).bits⟩

theorem has_effective (f : Feature) :
    mode.effective.has f = (mode.has f && (f != .integers || !mode.has .floats)) := by
  have hmask (floats : Bool) :
      (ofFeatures (Feature.all.filter fun f => f != .integers || !floats)).bits.toBitVec.getLsbD
        f.place = (f != .integers || !floats) := by
    cases floats <;> cases f <;> rfl
  rw [has_eq_getLsbD, effective, UInt32.toBitVec_and, BitVec.getLsbD_and, hmask, ← has_eq_getLsbD]

end Mode

namespace Lexeme

/-- What has to stand at the start of a text for a lexeme of a kind. -/
def opensWith (mode : Mode) (text : List Char) : Kind → Bool
  | .endOfInput => text.isEmpty
  | .identifier => mode.opensIdentifier text
  | .integer => mode.opensNumber text
  | .float => mode.opensNumber text
  | .char => mode.opensQuoted text .chars '\x27'
  | .string => mode.opensQuoted text .strings '\x22'
  | .rawString => mode.opensQuoted text .rawStrings '\x60'
  | .comment => mode.opensComment text
  | .rune c => text.head? == some c

variable {mode : Mode} {c : SourceChar} {rest : List SourceChar}

theorem opensWith_lexemeKind (mode : Mode) (text : List Char) (quoting : Quoting) :
    opensWith mode text quoting.lexemeKind =
      mode.opensQuoted text quoting.feature quoting.mark := by
  cases quoting <;> rfl

theorem opensWith_number (text : List Char) (n : Number) :
    opensWith mode text (number n).kind = mode.opensNumber text := by
  rcases kind_number n with hkind | hkind
  · rw [hkind, opensWith]
  · rw [hkind, opensWith]

theorem Form.opensWith {l : Lexeme} (h : Form mode c rest l) :
    Lexeme.opensWith mode (plainText (c :: rest)) l.kind = true := by
  cases h with
  | identifier hstart hmode => simp [Lexeme.opensWith, kind, Mode.opensIdentifier, hmode, hstart]
  | number hdigit hmode =>
    rw [opensWith_number]
    simp [Mode.opensNumber, hdigit, Bool.or_eq_true_iff.1 hmode]
  | point hc hdigit hmode =>
    cases rest with
    | nil => cases hdigit
    | cons d rest =>
      have hd : d.char.isDigit = true := hdigit
      rw [opensWith_number]
      simp [Mode.opensNumber, hc, hd, hmode, SourceChar.char_valid]
  | quoted quoting hc hmode =>
    rw [quoting.kind_read, opensWith_lexemeKind]
    simp [Mode.opensQuoted, hc, hmode, SourceChar.char_valid]
  | lineComment hc hrest hmode =>
    simp [Lexeme.opensWith, kind, Mode.opensComment, hc, hrest, hmode, SourceChar.char_valid]
  | blockComment hc hrest hmode =>
    simp [Lexeme.opensWith, kind, Mode.opensComment, hc, hrest, hmode, SourceChar.char_valid]
  | single => simp [Lexeme.opensWith, kind]

/-- A lexeme is of a kind that its text opens with. -/
theorem opensWith_read {k : Kind} (h : (read mode c rest).kind = k) :
    opensWith mode (plainText (c :: rest)) k = true :=
  h ▸ (form_read mode c rest).opensWith

/-! ## Kinds and openings -/

theorem kind_eq_identifier_iff : (read mode c rest).kind = .identifier ↔
    mode.opensIdentifier (plainText (c :: rest)) = true := by
  refine ⟨opensWith_read, fun h => ?_⟩
  rw [Mode.opensIdentifier, Bool.and_eq_true] at h
  rw [read_of_isIdentifierStart h.2 h.1]
  rfl

/-- An identifier goes on for as long as its characters may be part of one. -/
theorem text_of_identifier (h : (read mode c rest).kind = .identifier) :
    (read mode c rest).text = (plainText (c :: rest)).takeWhile isIdentifierPart := by
  have hopens := kind_eq_identifier_iff.1 h
  rw [Mode.opensIdentifier, Bool.and_eq_true] at hopens
  have hstart : isIdentifierStart c.char = true := hopens.2
  have hpart : isIdentifierPart c.char = true := by
    rw [isIdentifierPart, ← isIdentifierStart, hstart, Bool.true_or]
  rw [read_of_isIdentifierStart hstart hopens.1, plainText_cons, List.takeWhile_cons_of_pos hpart,
    plainText, List.takeWhile_map]
  rfl

theorem kind_number_iff :
    (read mode c rest).kind = .integer ∨ (read mode c rest).kind = .float ↔
      mode.opensNumber (plainText (c :: rest)) = true := by
  constructor
  · rintro (h | h)
    · exact opensWith_read h
    · exact opensWith_read h
  · intro h
    rw [Mode.opensNumber, Bool.or_eq_true] at h
    rcases h with h | h
    · rw [Bool.and_eq_true] at h
      rw [read_of_isDigit h.2 h.1]
      exact kind_number _
    · rw [Bool.and_eq_true, Bool.and_eq_true, beq_iff_eq] at h
      have hc : c = .valid '.' :=
        eq_valid_of_char_eq (Option.some.inj h.1.2) (by decide)
      have hdigit : rest.head?.any (·.char.isDigit) = true := by
        cases rest with
        | nil => cases h.2
        | cons d rest => exact h.2
      rw [hc, read_point, h.1.1, hdigit]
      exact kind_number _

/-- Floats are found only where they are recognised. -/
theorem has_floats_of_kind_eq_float (h : (read mode c rest).kind = .float) :
    mode.has .floats = true := by
  obtain ⟨hread, -⟩ := read_of_kind_number (.inr h)
  by_contra hfloats
  rw [hread, Bool.eq_false_iff.2 hfloats] at h
  cases h

theorem kind_eq_lexemeKind_iff (quoting : Quoting) :
    (read mode c rest).kind = quoting.lexemeKind ↔
      mode.opensQuoted (plainText (c :: rest)) quoting.feature quoting.mark = true := by
  constructor
  · intro h
    rw [← opensWith_lexemeKind]
    exact opensWith_read h
  · intro h
    rw [Mode.opensQuoted, Bool.and_eq_true, beq_iff_eq] at h
    have hmark : quoting.mark ≠ SourceChar.replacement := by
      cases quoting <;> decide
    rw [eq_valid_of_char_eq (Option.some.inj h.2) hmark, read_mark quoting h.1]
    exact quoting.kind_read rest

theorem kind_eq_comment_iff : (read mode c rest).kind = .comment ↔
    mode.opensComment (plainText (c :: rest)) = true := by
  refine ⟨opensWith_read, fun h => ?_⟩
  rw [Mode.opensComment, Bool.and_eq_true] at h
  cases rest with
  | nil => simp at h
  | cons d rest =>
    have hmarks : c.char = '/' ∧ (d.char = '/' ∨ d.char = '*') := by
      have hopens := h.2
      simp only [plainText_cons, List.isPrefixOf_cons_cons, List.isPrefixOf_nil_left, Bool.and_true,
        Bool.or_eq_true, Bool.and_eq_true, beq_iff_eq] at hopens
      rcases hopens with ⟨hc, hd⟩ | ⟨hc, hd⟩
      · exact ⟨hc.symm, .inl hd.symm⟩
      · exact ⟨hc.symm, .inr hd.symm⟩
    rw [eq_valid_of_char_eq hmarks.1 (by decide), read_slash, if_pos h.1]
    rcases hmarks.2 with hd | hd
    · rw [eq_valid_of_char_eq hd (by decide)]
      rfl
    · rw [eq_valid_of_char_eq hd (by decide)]
      rfl

/-- Where a text opens with nothing else, its first character stands for itself, if it is not the
start of a comment that is left out. -/
theorem read_eq_single (h : mode.opens (plainText (c :: rest)) = false)
    (hshown : ((read mode c rest).isComment && mode.has .skipComments) = false) :
    read mode c rest = .single c := by
  simp only [Mode.opens, Bool.or_eq_false_iff] at h
  obtain ⟨⟨⟨⟨⟨hidentifier, hnumber⟩, hstring⟩, hchar⟩, hraw⟩, hcomment⟩ := h
  have hform := form_read mode c rest
  have hopens := hform.opensWith
  generalize read mode c rest = l at hform hopens hshown
  -- each form but one needs an opening that is not there
  cases hform with
  | identifier => exact absurd hopens (Bool.eq_false_iff.1 hidentifier)
  | number | point =>
    rw [opensWith_number, hnumber] at hopens
    cases hopens
  | quoted quoting =>
    rw [quoting.kind_read, opensWith_lexemeKind] at hopens
    cases quoting with
    | double => exact absurd hopens (Bool.eq_false_iff.1 hstring)
    | single => exact absurd hopens (Bool.eq_false_iff.1 hchar)
    | backticks => exact absurd hopens (Bool.eq_false_iff.1 hraw)
  | lineComment | blockComment =>
    have hskip : mode.has .skipComments = false := hshown
    have hstarts : mode.opensComment (plainText (c :: rest)) = true := hopens
    rw [hskip, hstarts] at hcomment
    cases hcomment
  | single => rfl

end Lexeme

end Lexis
