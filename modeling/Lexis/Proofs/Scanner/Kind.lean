import Lexis.Proofs.Lexeme.Opening
import Lexis.Proofs.Lexer.Tokens
import Lexis.Proofs.Scanner.Lexeme

/-!
# Kinds that are scanned

Of which kind a scan tells is settled by the mode and by what the source holds from the start of the
scan on. `Scan.IsClassified` says how, and every scan of a source is classified so
(`Source.nthScan_isClassified`). Bits of the mode that are not in `Mode.effective` have no say in
it: without them the same is scanned.
-/

namespace Lexis

/-! ## Bits that make no difference -/

/-- The configuration without the bits of its mode that make no difference. -/
def Config.effective (config : Config) : Config :=
  { config with mode := config.mode.effective }

theorem Lexeme.read_effective (mode : Mode) (c : SourceChar) (rest : List SourceChar) :
    read mode.effective c rest = read mode c rest := by
  have hnumbers : (mode.effective.has .integers || mode.effective.has .floats) =
      (mode.has .integers || mode.has .floats) := by
    rw [mode.has_effective, mode.has_effective]
    cases mode.has .integers <;> cases mode.has .floats <;> rfl
  have hhas (f : Feature) (hf : f ≠ .integers) : mode.effective.has f = mode.has f := by
    rw [mode.has_effective, bne_iff_ne.2 hf, Bool.true_or, Bool.and_true]
  unfold read
  rw [hnumbers, hhas .identifiers (by decide), hhas .floats (by decide), hhas .strings (by decide),
    hhas .chars (by decide), hhas .rawStrings (by decide), hhas .comments (by decide)]

theorem Reading.next_effective (config : Config) (r : Reading) :
    r.next config.effective = r.next config := by
  have hskip : config.effective.mode.has .skipComments = config.mode.has .skipComments := by
    rw [Config.effective, Mode.has_effective]
    simp
  fun_induction next config r with
  | case1 r before hrest =>
    exact next_of_skipWhitespace_rest_eq_nil config.effective hrest
  | case2 r before c rest hrest lexeme after hlt hcomment ih =>
    rw [next_of_skipWhitespace_rest_eq_cons config.effective hrest, ← ih]
    dsimp only
    rw [hskip, Config.effective, Lexeme.read_effective, if_pos hcomment]
    rfl
  | case3 r before c rest hrest lexeme after hlt hcomment =>
    rw [next_of_skipWhitespace_rest_eq_cons config.effective hrest]
    dsimp only
    rw [hskip, Config.effective, Lexeme.read_effective, if_neg hcomment]
    rfl

/-- The scanner with the bits of its mode cleared that make no difference. -/
def Scanner.effective (s : Scanner) : Scanner :=
  { s with config := s.config.effective }

theorem Scanner.scan_effective (s : Scanner) :
    s.effective.scan = (s.scan.1, s.scan.2.effective) := by
  show s.effective.scan = (s.scan.1, { s.scan.2 with config := s.config.effective })
  simp only [scan, effective, Reading.next_effective]

theorem Source.scannerAfter_effective (source : Source) (config : Config) (n : Nat) :
    source.scannerAfter config.effective n = (source.scannerAfter config n).effective := by
  induction n with
  | zero => rfl
  | succ n ih =>
    show (source.scannerAfter config.effective n).scan.2 = _
    rw [ih, Scanner.scan_effective]
    rfl

/-! ## Classification -/

/-- What `scan` tells is what the mode has for a text that is left from its start on. -/
structure Scan.IsClassified (scan : Scan) (mode : Mode) (text : List Char) : Prop where
  endOfInput_iff : scan.kind = .endOfInput ↔ text = []
  identifier_iff : scan.kind = .identifier ↔ mode.opensIdentifier text = true
  /-- An identifier is the longest run of characters that may be part of one. -/
  identifier_text : scan.kind = .identifier → scan.text = text.takeWhile isIdentifierPart
  number_iff : scan.kind = .integer ∨ scan.kind = .float ↔ mode.opensNumber text = true
  float : scan.kind = .float → mode.has .floats = true
  string_iff : scan.kind = .string ↔ mode.opensQuoted text .strings '\x22' = true
  char_iff : scan.kind = .char ↔ mode.opensQuoted text .chars '\x27' = true
  rawString_iff : scan.kind = .rawString ↔ mode.opensQuoted text .rawStrings '\x60' = true
  comment_iff : scan.kind = .comment ↔
    mode.opensComment text = true ∧ mode.has .skipComments = false
  /-- Any other text starts with a character that stands for itself. -/
  rune : ∀ c more, text = c :: more → mode.opens text = false →
    scan.kind = .rune c ∧ scan.kind.code = c.toNat ∧ scan.text = [c] ∧
      scan.kind.code = (Token.rune c).kind ∧ String.ofList scan.text = (Token.rune c).value ∧
      ∀ file, scan.fatal? = none →
        scan.toToken file = .ok { Token.rune c with place := ⟨file, scan.start⟩ }
  /-- A NUL is such a character, and not the end of the input. -/
  nul : text.head? = some '\x00' → scan.kind.code = 0

/-- Where nothing is left, a scan that tells so is classified. -/
theorem Scan.isClassified_of_endOfInput {scan : Scan} (h : scan.kind = .endOfInput) (mode : Mode) :
    scan.IsClassified mode [] := by
  constructor
  · exact ⟨fun _ => rfl, fun _ => h⟩
  · simp [h, Mode.opensIdentifier]
  · simp [h]
  · simp [h, Mode.opensNumber]
  · simp [h]
  · simp [h, Mode.opensQuoted]
  · simp [h, Mode.opensQuoted]
  · simp [h, Mode.opensQuoted]
  · simp [h, Mode.opensComment]
  · intro c more hnil
    cases hnil
  · intro hnil
    cases hnil

namespace Scanner.Finds

variable {s : Scanner} {skipped : Nat} {c : SourceChar} {rest : List SourceChar}

/-- A scan that finds a lexeme which is not passed over is classified by it and by what follows. -/
theorem isClassified (h : s.Finds skipped c rest) (hshown : s.config.passesOver c rest = false) :
    s.scan.1.IsClassified s.config.mode (plainText (c :: rest)) := by
  have hskip := (Bool.or_eq_false_iff.1 hshown).2
  have hrune : ∀ d more, plainText (c :: rest) = d :: more →
      s.config.mode.opens (plainText (c :: rest)) = false →
      s.scan.1.kind = .rune d ∧ s.scan.1.text = [d] := by
    intro d more htext hopens
    rw [plainText_cons] at htext
    cases htext
    rw [h.kind_eq, h.text_eq, Lexeme.read_eq_single hopens hskip]
    exact ⟨rfl, rfl⟩
  constructor
  · rw [h.kind_eq]
    exact ⟨fun hkind => absurd hkind (Lexeme.kind_ne_endOfInput _), fun hnil => by cases hnil⟩
  · rw [h.kind_eq]
    exact Lexeme.kind_eq_identifier_iff
  · rw [h.kind_eq, h.text_eq]
    exact Lexeme.text_of_identifier
  · rw [h.kind_eq]
    exact Lexeme.kind_number_iff
  · rw [h.kind_eq]
    exact Lexeme.has_floats_of_kind_eq_float
  · rw [h.kind_eq]
    exact Lexeme.kind_eq_lexemeKind_iff .double
  · rw [h.kind_eq]
    exact Lexeme.kind_eq_lexemeKind_iff .single
  · rw [h.kind_eq]
    exact Lexeme.kind_eq_lexemeKind_iff .backticks
  · rw [h.kind_eq, ← Lexeme.kind_eq_comment_iff]
    refine ⟨fun hkind => ⟨hkind, ?_⟩, And.left⟩
    rw [(Lexeme.isComment_iff _).2 hkind, Bool.true_and] at hskip
    exact hskip
  · intro d more htext hopens
    obtain ⟨hkind, hcharacter⟩ := hrune d more htext hopens
    refine ⟨hkind, ?_, hcharacter, ?_, ?_, ?_⟩
    · rw [hkind]
      rfl
    · rw [hkind]
      rfl
    · rw [hcharacter]
      rfl
    · intro file hfatal
      simp only [Scan.toToken, hfatal, hkind, hcharacter, cook]
      rfl
  · intro hnul
    have hopens : s.config.mode.opens ('\x00' :: plainText rest) = false := by
      have hstart : isIdentifierStart '\x00' = false := by decide +kernel
      simp [Mode.opens, Mode.opensIdentifier, Mode.opensNumber, Mode.opensQuoted,
        Mode.opensComment, hstart]
    have hc : c.char = '\x00' := Option.some.inj hnul
    rw [← hc] at hopens
    rw [(hrune c.char _ rfl hopens).1, hc]
    rfl

end Scanner.Finds

namespace Source

/-- Every scan of a source is classified by the mode and by what is left of the source from its
start on, and the bits of the mode that make no difference could as well be cleared. -/
theorem nthScan_isClassified (source : Source) (config : Config) (n : Nat) :
    let scan := source.nthScan config n
    (∃ text, source.slice? scan.start.offset source.size = some text ∧
      scan.IsClassified config.mode text) ∧
    source.nthScan config.effective n = scan := by
  intro scan
  refine ⟨?_, ?_⟩
  · obtain ⟨passed, hconfig, hcursor⟩ := source.exists_scannerAfter config n
    by_cases hend : scan.kind = .endOfInput
    · obtain ⟨skipped, taken, hstep⟩ := (source.scannerAfter config n).exists_step
      have hslice := source.slice?_advance_size (passed + skipped)
      rw [← List.drop_drop, ← Cursor.advance_advance, ← Cursor.advance_rest, ← hcursor,
        ← hstep.start_eq, hstep.endOfInput hend] at hslice
      exact ⟨[], hslice, Scan.isClassified_of_endOfInput hend config.mode⟩
    · obtain ⟨skipped, c, rest, hfinds, hshown⟩ := Scanner.exists_finds hend
      have hslice := source.slice?_advance_size (passed + skipped)
      rw [← Cursor.advance_rest, ← Cursor.advance_advance, ← hcursor, ← hfinds.start_eq,
        hfinds.rest_eq] at hslice
      have hclassified := hfinds.isClassified hshown
      rw [hconfig] at hclassified
      exact ⟨_, hslice, hclassified⟩
  · show (source.scannerAfter config.effective n).scan.1 = _
    rw [scannerAfter_effective, Scanner.scan_effective]
    rfl

/-- Without floats, the point behind an integer stands for itself, and so does a quote where strings
are not recognised. -/
example :
    let scan := (ofString "1.\"").nthScan ⟨.ofFeatures [.integers], blanks⟩
    [(scan 0).kind, (scan 1).kind, (scan 2).kind] = [.integer, .rune '.', .rune '\x22'] := by
  decide +kernel

end Source

end Lexis
