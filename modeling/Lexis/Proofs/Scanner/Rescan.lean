import Lexis.Proofs.Scanner.LineEnd

/-!
# Scanning texts again

Where nothing was reported, the texts of the lexemes can be put on lines of their own and scanned
again: they come out as they went in (`Scanner.scanAll_onLines`). Each of them stands for itself
there (`Scanner.StandsAlone`), so that a run over many follows from a single scan.
-/

namespace Lexis

/-- Texts, each behind a line end, and a line end behind them all. -/
def onLines (texts : List (List Char)) : List Char :=
  texts.flatMap ('\n' :: ·) ++ ['\n']

theorem onLines_cons (text : List Char) (texts : List (List Char)) :
    onLines (text :: texts) = '\n' :: text ++ onLines texts := by
  simp [onLines]

/-- However many texts there are, a line end comes first. -/
theorem exists_onLines_eq_cons (texts : List (List Char)) : ∃ more, onLines texts = '\n' :: more := by
  cases texts with
  | nil => exact ⟨[], rfl⟩
  | cons text texts => exact ⟨_, onLines_cons text texts⟩

/-- The kind and the text of a lexeme. -/
def Scan.word (scan : Scan) : Kind × List Char :=
  (scan.kind, scan.text)

namespace Scanner

/-- Between two line ends the text of the word is scanned as a lexeme of its kind, without
complaint. -/
structure StandsAlone (config : Config) (word : Kind × List Char) : Prop where
  kind_ne : word.1 ≠ .endOfInput
  scan {s : Scanner} {more : List SourceChar} (hconfig : s.config = config)
    (hrest : s.cursor.rest = ('\n' :: word.2).map .valid ++ .valid '\n' :: more) :
    s.scan.1.word = word ∧ s.scan.1.reports = [] ∧ s.scan.2.cursor.rest = .valid '\n' :: more

variable {config : Config}

/-- A lexeme that nothing is wrong with and that is not passed over stands for itself. -/
theorem standsAlone_of_isWhole (hline : config.isWhitespace '\n' = true) {c : SourceChar}
    {rest : List SourceChar} (hwhole : (Lexeme.read config.mode c rest).IsWhole)
    (hsound : ∀ d ∈ (Lexeme.read config.mode c rest).chars, d.fault? = none)
    (hshown : config.passesOver c rest = false) :
    StandsAlone config
      ((Lexeme.read config.mode c rest).kind, (Lexeme.read config.mode c rest).text) := by
  refine ⟨Lexeme.kind_ne_endOfInput _, ?_⟩
  rintro s more rfl hrest
  have hagain := Lexeme.read_before_lineEnd hwhole hsound more
  have hchars := Lexeme.chars_read_eq_cons s.config.mode c rest
  rw [Config.passesOver] at hshown
  generalize Lexeme.read s.config.mode c rest = l at hagain hchars hshown hsound hrest ⊢
  obtain ⟨hwhole', hkind, hsame⟩ := hagain
  have hcomment : (Lexeme.read s.config.mode c (l.chars.tail ++ .valid '\n' :: more)).isComment =
      l.isComment := by
    rw [Bool.eq_iff_iff, Lexeme.isComment_iff, Lexeme.isComment_iff, hkind]
  have hsource : s.cursor.rest = [.valid '\n'] ++ (l.chars ++ .valid '\n' :: more) := by
    rw [hrest, List.map_cons, Lexeme.text, ← SourceChar.eq_map_valid hsound]
    rfl
  have hbehind : l.chars ++ .valid '\n' :: more =
      c :: (l.chars.tail ++ .valid '\n' :: more) := by
    rw [← List.cons_append, ← hchars]
  have hfinds : s.Finds 1 c (l.chars.tail ++ .valid '\n' :: more) :=
    finds_of_blanks (hbehind ▸ hsource) (List.forall_mem_singleton.2 hline)
      (by rwa [Config.passesOver, hcomment])
  refine ⟨?_, ?_, ?_⟩
  · rw [Scan.word, hfinds.kind_eq, hfinds.text_eq, hkind, Lexeme.text, hsame]
    rfl
  · have hnone := (Lexeme.reportsAt_eq_nil_iff hfinds.rest_eq).2 ⟨hwhole', by rwa [hsame]⟩
    rw [hfinds.reports_eq, hnone, hsource]
    rfl
  · rw [hfinds.cursor_eq, hsame, Cursor.advance_rest, hfinds.rest_eq, ← hbehind, List.drop_left]

variable {s : Scanner}

/-- A lexeme of which nothing was reported stands for itself. -/
theorem standsAlone_of_scan (hline : s.config.isWhitespace '\n' = true)
    (hkind : s.scan.1.kind ≠ .endOfInput) (hclean : s.scan.1.reports = []) :
    StandsAlone s.config s.scan.1.word := by
  obtain ⟨skipped, c, rest, hfinds, hshown⟩ := exists_finds hkind
  have hreports := hfinds.reports_eq
  rw [hclean, eq_comm, List.append_eq_nil_iff] at hreports
  obtain ⟨hwhole, hsound⟩ := (Lexeme.reportsAt_eq_nil_iff hfinds.rest_eq).1 hreports.2
  rw [Scan.word, hfinds.kind_eq, hfinds.text_eq]
  exact standsAlone_of_isWhole hline hwhole hsound hshown

/-- In a run, every lexeme of which nothing was reported stands for itself. -/
theorem standsAlone_of_mem_scanAll (hline : s.config.isWhitespace '\n' = true) {scan : Scan}
    (hscan : scan ∈ s.scanAll.1) (hkind : scan.kind ≠ .endOfInput) (hclean : scan.reports = []) :
    StandsAlone s.config scan.word := by
  induction s using run_induction with
  | endOfInput s hend =>
    rw [scanAll_of_endOfInput hend, List.mem_singleton] at hscan
    exact absurd (hscan ▸ hend) hkind
  | lexeme s hlexeme ih =>
    rw [scanAll_of_lexeme hlexeme, List.mem_cons] at hscan
    rcases hscan with rfl | hscan
    · exact standsAlone_of_scan hline hlexeme hclean
    · exact ih hline hscan

/-- Words that stand for themselves, put on lines of their own, are scanned one after the other. -/
theorem scanAll_of_standsAlone (hline : s.config.isWhitespace '\n' = true)
    {words : List (Kind × List Char)} (hwords : ∀ word ∈ words, StandsAlone s.config word)
    (hrest : s.cursor.rest = (onLines (words.map Prod.snd)).map .valid) :
    s.scanAll.1.map Scan.word = words ++ [(.endOfInput, [])] ∧
      ∀ scan ∈ s.scanAll.1, scan.reports = [] := by
  induction words generalizing s with
  | nil =>
    have hscan := scan_of_only_blanks (s := s) (by
      rw [hrest]
      exact List.forall_mem_singleton.2 hline)
    rw [scanAll_of_endOfInput (by rw [hscan]), hscan, hrest]
    exact ⟨rfl, List.forall_mem_singleton.2 rfl⟩
  | cons word words ih =>
    obtain ⟨hword, hwords⟩ := List.forall_mem_cons.1 hwords
    obtain ⟨more, hmore⟩ := exists_onLines_eq_cons (words.map Prod.snd)
    rw [List.map_cons, onLines_cons, List.map_append, hmore, List.map_cons] at hrest
    obtain ⟨htold, hclean, hafter⟩ := hword.scan rfl hrest
    have hkind : s.scan.1.kind ≠ .endOfInput := by
      rw [show s.scan.1.kind = word.1 from congrArg Prod.fst htold]
      exact hword.kind_ne
    obtain ⟨hrun, hreports⟩ := ih (s := s.scan.2) hline hwords (by
      rw [hafter, hmore, List.map_cons])
    rw [scanAll_of_lexeme hkind]
    refine ⟨?_, List.forall_mem_cons.2 ⟨hclean, hreports⟩⟩
    rw [List.map_cons, htold, hrun]
    rfl

/-- Where nothing is reported of a source, the texts of its lexemes can be scanned again: put on
lines of their own, they come out with the kinds they had, and again nothing is reported. -/
theorem scanAll_onLines {source : Source} (hline : config.isWhitespace '\n' = true)
    (hclean : ∀ scan ∈ (ofSource config source).scanAll.1, scan.reports = []) :
    let words := ((ofSource config source).scanAll.1.filter (·.kind ≠ .endOfInput)).map Scan.word
    let again := (ofSource config (.ofText (onLines (words.map Prod.snd)))).scanAll.1
    again.map Scan.word = words ++ [(.endOfInput, [])] ∧ ∀ scan ∈ again, scan.reports = [] := by
  intro words again
  have hwords : ∀ word ∈ words, StandsAlone config word := by
    intro word hword
    obtain ⟨scan, hscan, rfl⟩ := List.mem_map.1 hword
    obtain ⟨hmem, hkind⟩ := List.mem_filter.1 hscan
    exact standsAlone_of_mem_scanAll (s := ofSource config source) hline hmem
      (of_decide_eq_true hkind) (hclean scan hmem)
  refine scanAll_of_standsAlone (s := ofSource config _) hline hwords ?_
  -- the text starts with a line end, so no mark is taken off it
  obtain ⟨more, hmore⟩ := exists_onLines_eq_cons (words.map Prod.snd)
  rw [hmore]
  rfl

/-- Comments that are kept come out again, and a line end in one of them does no harm. -/
theorem scanAll_onLines_of_comments :
    let config : Config := ⟨Mode.full.difference (.ofFeatures [.skipComments]), blanks⟩
    let words : List (Kind × List Char) := [(.identifier, ['a']), (.float, ['.', '1']),
      (.comment, ['/', '*', '\n', '*', '/']), (.comment, ['/', '/', 'b'])]
    let again := (ofSource config (.ofText (onLines (words.map Prod.snd)))).scanAll.1
    again.map Scan.word = words ++ [(.endOfInput, [])] ∧ ∀ scan ∈ again, scan.reports = [] := by
  intro config words
  have hwords : ((ofSource config (.ofString "a.1/*\n*/ //b")).scanAll.1.filter
      (·.kind ≠ .endOfInput)).map Scan.word = words := by
    decide +kernel
  have hclean : ∀ scan ∈ (ofSource config (.ofString "a.1/*\n*/ //b")).scanAll.1,
      scan.reports = [] := by
    decide +kernel
  have hline : config.isWhitespace '\n' = true := by
    decide
  have hagain := scanAll_onLines hline hclean
  rw [hwords] at hagain
  exact hagain

end Scanner

end Lexis
