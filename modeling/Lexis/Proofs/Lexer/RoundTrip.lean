import Lexis.Proofs.Lexer.Apostrophes
import Lexis.Proofs.Scanner.Whole
import Lexis.Proofs.Source.Places
import Lexis.Proofs.Token.Spelling

/-!
# From values to literals and back

Values that are written as literals, with blanks between them, come back as the values of the tokens
(`Lexer.consumeAll_written`). A literal is scanned to its end whatever follows it, nothing is
reported of it but that a literal between apostrophes does not hold one character, and what it is
cooked to is the value that was written (`Quoting.cook_write`).
-/

namespace Lexis

namespace Quoting

variable {quoting : Quoting} {value : String}

/-- Cooking gives the value that was written. -/
theorem cook_write (quoting : Quoting) (value : String) :
    cook quoting.lexemeKind (quoting.write value) = .ok (quoting.kind value, value) := by
  cases quoting with
  | double =>
    show (unquote ('\x22' :: double.spelled value.toList ++ ['\x22'])).map _ = _
    rw [unquote_spelled (by decide)]
    rfl
  | single =>
    show (unquote ('\x22' :: stripDelimiters ('\x27' :: single.spelled value.toList ++ ['\x27']) ++
      ['\x22'])).map _ = _
    rw [stripDelimiters_quoted, unquote_spelled (by decide)]
    by_cases hone : value.length ≤ 1
    · simp [Except.map, kind, hone, Nat.not_lt.2 hone]
    · simp [Except.map, kind, hone, Nat.not_le.1 hone]
  | backticks =>
    show Except.ok (Kind.rawString, String.ofList (stripDelimiters
      ('\x60' :: backticks.spelled value.toList ++ ['\x60']))) = _
    rw [stripDelimiters_quoted, spelled_backticks, String.ofList_toList]
    rfl

/-- What a literal is read as that stands somewhere, with `more` behind it. -/
structure ReadAs (quoting : Quoting) (value : String) (more : List SourceChar) (l : Lexeme) :
    Prop where
  kind_eq : l.kind = quoting.lexemeKind
  chars_eq : l.chars = (quoting.write value).map .valid
  tolerated : ∀ cursor : Cursor, cursor.rest = (quoting.write value).map .valid ++ more →
    ∀ report ∈ l.reportsAt cursor, report.fault = .illegalCharLiteral

/-- Nothing is reported of what is written, as long as it is read character by character. -/
theorem reportsFrom_write (h : quoting.CanWrite value) (position : Position) :
    SourceChar.reportsFrom position ((quoting.write value).map .valid) = [] := by
  have hmark : quoting.mark ≠ '\x00' := by
    cases quoting <;> decide
  have hnul : '\x00' ∉ quoting.write value := by
    intro hmem
    rw [write, List.cons_append, List.mem_cons, List.mem_append, List.mem_singleton] at hmem
    rcases hmem with hmem | hmem | hmem
    · exact hmark hmem.symm
    · exact nul_notMem_spelled h hmem
    · exact hmark hmem.symm
  exact SourceChar.reportsFrom_eq_nil_of_not_mem hnul position

/-- Between quotes, the literal is read to its end, whatever follows it. -/
theorem isWhole_read (hquoting : quoting ≠ backticks) (value : String) (more : List SourceChar) :
    let q := Quoted.read quoting.mark
      ((quoting.spelled value.toList).map .valid ++ .valid quoting.mark :: more)
    q.IsWhole ∧ q.chars = (quoting.write value).map .valid := by
  have hoctal : Text.isOctalDigit quoting.mark = false := by
    cases quoting <;> decide
  have hhex : Escape.hexWidth? quoting.mark = none := by
    cases quoting <;> decide
  have hslash : quoting.mark ≠ '\x5c' := by
    cases quoting <;> decide
  exact Quoted.isWhole_read hoctal hhex hslash (bodyText_spelled hquoting value.toList) more

/-- Between backticks, the literal is read to its end, whatever follows it. -/
theorem read_backticks (h : backticks.CanWrite value) (more : List SourceChar) :
    Enclosed.read Lexeme.backtick
        ((backticks.spelled value.toList).map .valid ++ .valid backticks.mark :: more) =
      ⟨(backticks.spelled value.toList).map .valid, true⟩ := by
  have hmark : '\x60' ∉ value.toList := (h rfl).1
  refine Enclosed.read_of_not_infix Lexeme.backtick_ne_nil ?_ more
  rw [plainText_map_valid, spelled_backticks]
  show ¬ ['\x60'] <:+: value.toList ++ []
  rw [List.append_nil, List.singleton_infix_iff]
  exact hmark

/-- A literal is read to its end, whatever follows it. -/
theorem readAs_read (h : quoting.CanWrite value) (more : List SourceChar) :
    quoting.ReadAs value more (Lexeme.read Mode.full (.valid quoting.mark)
      ((quoting.spelled value.toList).map .valid ++ .valid quoting.mark :: more)) := by
  have htake {cursor : Cursor} (hrest : cursor.rest = (quoting.write value).map .valid ++ more) :
      cursor.rest.take ((quoting.write value).map SourceChar.valid).length =
        (quoting.write value).map .valid := by
    rw [hrest, List.take_left]
  -- of a lexeme that is whole, only faulty characters would be reported
  have hwhole {l : Lexeme} (hl : l.IsWhole) (hchars : l.chars = (quoting.write value).map .valid)
      (cursor : Cursor) (hrest : cursor.rest = (quoting.write value).map .valid ++ more) :
      ∀ report ∈ l.reportsAt cursor, report.fault = .illegalCharLiteral := by
    rw [Lexeme.reportsAt_of_isWhole hl, hchars, htake hrest, reportsFrom_write h]
    exact List.forall_mem_nil _
  have hmode : Mode.full.has quoting.feature = true := by
    cases quoting <;> decide
  rw [Lexeme.read_mark quoting hmode]
  cases quoting with
  | double =>
    obtain ⟨hq, hchars⟩ := isWhole_read (by decide : double ≠ backticks) value more
    exact ⟨rfl, hchars, hwhole (.string hq) hchars⟩
  | single =>
    obtain ⟨hq, hchars⟩ := isWhole_read (by decide : single ≠ backticks) value more
    refine ⟨rfl, hchars, ?_⟩
    intro cursor hrest report hreport
    change report ∈ (Lexeme.char (.read single.mark _)).reportsAt cursor at hreport
    rw [Lexeme.reportsAt_char hq, hchars, htake hrest, reportsFrom_write h, List.nil_append]
      at hreport
    split at hreport
    · cases hreport
    · rw [List.mem_singleton.1 hreport]
  | backticks =>
    have hchars : (Lexeme.rawString ⟨(backticks.spelled value.toList).map .valid, true⟩).chars =
        (backticks.write value).map .valid := by
      simp [Lexeme.chars, Enclosed.charsThrough, Lexeme.backtick, write, mark]
    rw [Quoting.read, read_backticks h]
    exact ⟨rfl, hchars, hwhole (.rawString rfl) hchars⟩

end Quoting

/-- A value to be written as a literal, and the blanks that stand before the literal. -/
structure Literal where
  space : List Char
  quoting : Quoting
  value : String
  isWhitespace : ∀ b ∈ space, Config.full.isWhitespace b = true
  canWrite : quoting.CanWrite value

namespace Literal

/-- What is written for the value, with the blanks. -/
def text (l : Literal) : List Char :=
  l.space ++ l.quoting.write l.value

/-- What is written for values, one after the other. -/
def texts (literals : List Literal) : List Char :=
  literals.flatMap text

/-- The token that is to come back for a value, where `before` stands before the literal and its
blanks. -/
def token (before : List Char) (l : Literal) : Token :=
  ⟨(l.quoting.kind l.value).code, l.value, ⟨"", Position.start.locate (before ++ l.space)⟩⟩

/-- The tokens that are to come back for values, where `before` stands before them, and `trailing`
behind them up to the end of the input. -/
def tokens (before : List Char) (literals : List Literal) (trailing : List Char) : List Token :=
  match literals with
  | [] => [⟨Kind.endOfInput.code, "", ⟨"", Position.start.locate (before ++ trailing)⟩⟩]
  | l :: literals => l.token before :: tokens (before ++ l.text) literals trailing

/-- A blank or a mark comes first, so no byte order mark does. -/
theorem head?_texts_ne (literals : List Literal) {trailing : List Char}
    (htrailing : ∀ b ∈ trailing, Config.full.isWhitespace b = true) :
    (texts literals ++ trailing).head? ≠ some Source.byteOrderMark := by
  have hblank {space more : List Char} (hspace : ∀ b ∈ space, Config.full.isWhitespace b = true)
      (hmore : more.head? ≠ some Source.byteOrderMark) :
      (space ++ more).head? ≠ some Source.byteOrderMark := by
    cases space with
    | nil => exact hmore
    | cons b space =>
      intro hhead
      have hb := hspace b List.mem_cons_self
      rw [Option.some.inj hhead] at hb
      exact absurd hb (by decide)
  cases literals with
  | nil =>
    rw [texts, List.flatMap_nil, List.nil_append, ← List.append_nil trailing]
    exact hblank htrailing (by decide)
  | cons l literals =>
    rw [texts, List.flatMap_cons, text, List.append_assoc, List.append_assoc]
    refine hblank l.isWhitespace fun hhead => ?_
    have hmark : l.quoting.mark ≠ Source.byteOrderMark := by
      cases l.quoting <;> decide
    exact hmark (Option.some.inj hhead)

end Literal

/-! ## Scanning what is written -/

namespace Scanner

/-- Blanks are not reported. -/
theorem reportsFrom_blanks {space : List Char}
    (h : ∀ b ∈ space, Config.full.isWhitespace b = true) (position : Position) :
    SourceChar.reportsFrom position (space.map .valid) = [] := by
  have hnul : '\x00' ∉ space := fun hmem => absurd (h _ hmem) (by decide)
  exact SourceChar.reportsFrom_eq_nil_of_not_mem hnul position

/-- The blanks before a literal are skipped, and the literal is found behind them. -/
theorem finds_of_literal {s : Scanner} (hconfig : s.config = .full) (l : Literal)
    {more : List SourceChar} (hrest : s.cursor.rest = l.text.map .valid ++ more) :
    s.Finds l.space.length (.valid l.quoting.mark)
      ((l.quoting.spelled l.value.toList).map .valid ++ .valid l.quoting.mark :: more) := by
  have hsource : s.cursor.rest = l.space.map .valid ++ (.valid l.quoting.mark ::
      ((l.quoting.spelled l.value.toList).map .valid ++ .valid l.quoting.mark :: more)) := by
    rw [hrest, Literal.text, Quoting.write]
    simp
  have hmark : Config.full.isWhitespace l.quoting.mark = false := by
    cases l.quoting <;> decide
  have hcomment : (Lexeme.read Mode.full (.valid l.quoting.mark)
      ((l.quoting.spelled l.value.toList).map .valid ++ .valid l.quoting.mark :: more)).isComment =
        false := by
    rw [Bool.eq_false_iff, ne_eq, Lexeme.isComment_iff,
      (Quoting.readAs_read l.canWrite more).kind_eq]
    cases l.quoting <;> decide
  rw [← List.length_map (f := SourceChar.valid)]
  refine finds_of_blanks hsource ?_ ?_
  · intro b hb
    obtain ⟨d, hd, rfl⟩ := List.mem_map.1 hb
    rw [hconfig]
    exact l.isWhitespace d hd
  · have hmode : Config.full.mode = Mode.full := rfl
    rw [hconfig, Config.passesOver, SourceChar.char_valid, hmark, hmode, hcomment]
    rfl

/-- What is written for a value is scanned as one lexeme, of which the token is made that is to come
back. -/
theorem scan_of_literal {s : Scanner} (hconfig : s.config = .full) (l : Literal)
    {before : List Char} (hposition : s.cursor.position = Position.start.locate before)
    {more : List SourceChar} (hrest : s.cursor.rest = l.text.map .valid ++ more) :
    s.scan.1.kind ≠ .endOfInput ∧ s.scan.1.toToken "" = .ok (l.token before) ∧
      s.scan.2.cursor = s.cursor.advance l.text.length := by
  have hfinds := finds_of_literal hconfig l hrest
  have hread := Quoting.readAs_read l.canWrite more
  have hmode : s.config.mode = Mode.full := congrArg Config.mode hconfig
  rw [← hmode] at hread
  have hliteral : (s.cursor.advance l.space.length).rest =
      (l.quoting.write l.value).map .valid ++ more := by
    rw [Cursor.advance_rest, hrest, Literal.text, List.map_append, List.append_assoc,
      List.drop_left' (List.length_map _)]
  have htake : s.cursor.rest.take l.space.length = l.space.map .valid := by
    rw [hrest, Literal.text, List.map_append, List.append_assoc,
      List.take_left' (List.length_map _)]
  have hkind : s.scan.1.kind = l.quoting.lexemeKind := hfinds.kind_eq.trans hread.kind_eq
  have htext : s.scan.1.text = l.quoting.write l.value := by
    rw [hfinds.text_eq, Lexeme.text, hread.chars_eq, plainText_map_valid]
  have hstart : s.scan.1.start = Position.start.locate (before ++ l.space) := by
    rw [hfinds.start_eq, Cursor.advance_position, htake, plainText_map_valid, hposition,
      Position.locate_append]
  have htolerated : ∀ report ∈ s.scan.1.reports, report.fault = .illegalCharLiteral := by
    rw [hfinds.reports_eq, htake, reportsFrom_blanks l.isWhitespace, List.nil_append]
    exact hread.tolerated _ hliteral
  refine ⟨?_, ?_, ?_⟩
  · rw [hkind]
    cases l.quoting <;> decide
  · rw [Scan.toToken_of_tolerated htolerated, hkind, htext, Quoting.cook_write, hstart]
    rfl
  · rw [hfinds.cursor_eq, hread.chars_eq, Cursor.advance_advance, List.length_map, Literal.text,
      List.length_append]

/-- What is written for values, with blanks behind it, is scanned to the tokens that are to come
back. -/
theorem mapM_toToken_scanAll {s : Scanner} (hconfig : s.config = .full) {literals : List Literal}
    {before trailing : List Char} (hposition : s.cursor.position = Position.start.locate before)
    (htrailing : ∀ b ∈ trailing, Config.full.isWhitespace b = true)
    (hrest : s.cursor.rest = (Literal.texts literals ++ trailing).map .valid) :
    s.scanAll.1.mapM (·.toToken "") = .ok (Literal.tokens before literals trailing) := by
  induction literals generalizing s before with
  | nil =>
    have hblanks : s.cursor.rest = trailing.map .valid := hrest
    have hscan := scan_of_only_blanks (s := s) (by
      intro b hb
      rw [hblanks] at hb
      obtain ⟨d, hd, rfl⟩ := List.mem_map.1 hb
      rw [hconfig]
      exact htrailing d hd)
    have hstop : (s.cursor.advance s.cursor.rest.length).position =
        Position.start.locate (before ++ trailing) := by
      rw [Cursor.advance_position, List.take_length, hblanks, plainText_map_valid, hposition,
        Position.locate_append]
    dsimp only at hscan
    rw [hstop, hblanks, reportsFrom_blanks htrailing] at hscan
    rw [scanAll_of_endOfInput (by rw [hscan]), hscan]
    rfl
  | cons l literals ih =>
    rw [Literal.texts, List.flatMap_cons, List.append_assoc, List.map_append] at hrest
    obtain ⟨hkind, htoken, hcursor⟩ := scan_of_literal hconfig l hposition hrest
    have hstop : s.scan.2.cursor.position = Position.start.locate (before ++ l.text) := by
      rw [hcursor, Cursor.advance_position, hrest, List.take_left' (List.length_map _),
        plainText_map_valid, hposition, Position.locate_append]
    have hbehind : s.scan.2.cursor.rest = (Literal.texts literals ++ trailing).map .valid := by
      rw [hcursor, Cursor.advance_rest, hrest, List.drop_left' (List.length_map _)]
      rfl
    rw [scanAll_of_lexeme hkind, List.mapM_cons, htoken, ih (s := s.scan.2) hconfig hstop hbehind]
    rfl

end Scanner

namespace Lexer

/-- Values survive being written as literals and lexed again. Written one after the other, with
blanks before and behind each as one likes, they come back as the values of the tokens, each where
its literal stands, and then the end of the input is told. -/
theorem consumeAll_written (literals : List Literal) {trailing : List Char}
    (htrailing : ∀ b ∈ trailing, Config.full.isWhitespace b = true) :
    (ofString (String.ofList (Literal.texts literals ++ trailing))).consumeAll.1 =
      .ok (Literal.tokens [] literals trailing) := by
  have hcursor := Source.cursor_ofText (Literal.head?_texts_ne literals htrailing)
  have hsource : Source.ofString (String.ofList (Literal.texts literals ++ trailing)) =
      .ofText (Literal.texts literals ++ trailing) := by
    rw [Source.ofString, String.toList_ofList]
  rw [ofString, hsource, consumeAll_eq_mapM _ rfl rfl]
  exact Scanner.mapM_toToken_scanAll rfl (congrArg Cursor.position hcursor) htrailing
    (congrArg Cursor.rest hcursor)

/-- Quotes of both kinds, a backslash, a line end and a NUL are written and read back. -/
theorem consumeAll_written_of_quotes :
    (ofString " \"\\\"'\\\\\" '\\x27' '\\n\\x00'\t`\"\n\\` ").consumeAll.1 = .ok
      [⟨Kind.string.code, "\"'\\", ⟨"", ⟨1, 1, 2⟩⟩⟩, ⟨Kind.char.code, "'", ⟨"", ⟨9, 1, 10⟩⟩⟩,
        ⟨Kind.string.code, "\n\x00", ⟨"", ⟨16, 1, 17⟩⟩⟩,
        ⟨Kind.rawString.code, "\"\n\\", ⟨"", ⟨25, 1, 26⟩⟩⟩,
        ⟨Kind.endOfInput.code, "", ⟨"", ⟨31, 2, 4⟩⟩⟩] := by
  have h := consumeAll_written
    [⟨[' '], .double, "\"'\\", List.forall_mem_singleton.2 rfl, by decide⟩,
      ⟨[' '], .single, "'", List.forall_mem_singleton.2 rfl, by decide⟩,
      ⟨[' '], .single, "\n\x00", List.forall_mem_singleton.2 rfl, by decide⟩,
      ⟨['\t'], .backticks, "\"\n\\", List.forall_mem_singleton.2 rfl, by decide⟩]
    (List.forall_mem_singleton.2 rfl : ∀ b ∈ [' '], Config.full.isWhitespace b = true)
  refine Eq.trans (congrArg (fun text => (ofString text).consumeAll.1) ?_) (h.trans ?_)
  · decide +kernel
  · refine congrArg Except.ok ?_
    decide +kernel

end Lexer

end Lexis
