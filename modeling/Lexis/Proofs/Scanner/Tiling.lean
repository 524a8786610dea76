import Lexis.Proofs.Scanner.Step

/-!
# Lexemes and gaps tile a source

Scanned up to its end, a source falls into lexemes and the gaps before them. `Scan.StandsAt` says
what a single scan tells of the source, `Tiled` that the scans follow one another without leaving
anything out. All this holds for every source and every configuration: the byte order mark, the gaps
and the lexemes put together are the source, and the lexemes start at growing offsets.
-/

namespace Lexis

/-- A scan in its place. `last` is the byte offset where the lexeme before it ended, and `gap` is
the text from there to the start of this one. -/
structure Scan.StandsAt (scan : Scan) (config : Config) (source : Source) (last : Nat)
    (gap : List Char) : Prop where
  last_le : last ≤ scan.start.offset
  gap_eq : source.slice? last scan.start.offset = some gap
  isGap : ∃ rest, source.slice? scan.start.offset source.size = some rest ∧ Gap config gap rest
  text_eq : source.slice? scan.start.offset scan.stop.offset = some scan.text
  start_lt : scan.kind ≠ .endOfInput → scan.start.offset < scan.stop.offset
  atEnd : scan.kind = .endOfInput →
    scan.start.offset = source.size ∧ scan.stop.offset = source.size ∧ scan.text = []

/-- Scans that follow one another from byte offset `last` on, each behind a gap, up to the first
that tells the end of the input. -/
inductive Tiled (config : Config) (source : Source) : Nat → List (List Char) → List Scan → Prop
  | endOfInput {last : Nat} {gap : List Char} {scan : Scan}
      (hkind : scan.kind = .endOfInput) (hscan : scan.StandsAt config source last gap) :
      Tiled config source last [gap] [scan]
  | lexeme {last : Nat} {gap : List Char} {gaps : List (List Char)} {scan : Scan}
      {scans : List Scan} (hkind : scan.kind ≠ .endOfInput)
      (hscan : scan.StandsAt config source last gap)
      (hscans : Tiled config source scan.stop.offset gaps scans) :
      Tiled config source last (gap :: gaps) (scan :: scans)

/-- Gaps and lexemes in turn. -/
def interleave (gaps : List (List Char)) (scans : List Scan) : List Char :=
  (List.zipWith (fun gap (scan : Scan) => gap ++ scan.text) gaps scans).flatten

namespace Tiled

variable {config : Config} {source : Source} {last : Nat} {gaps : List (List Char)}
  {scans : List Scan}

/-- No lexeme starts before the one before it has ended. -/
theorem le_start_of_mem (h : Tiled config source last gaps scans) {scan : Scan}
    (hscan : scan ∈ scans) : last ≤ scan.start.offset := by
  induction h with
  | endOfInput _ hfirst =>
    rw [List.mem_singleton.1 hscan]
    exact hfirst.last_le
  | lexeme hkind hfirst _ ih =>
    rcases List.mem_cons.1 hscan with rfl | hmem
    · exact hfirst.last_le
    · have hlast := hfirst.last_le
      have hlt := hfirst.start_lt hkind
      have hle := ih hmem
      omega

/-- Lexemes start at growing offsets. -/
theorem pairwise_start (h : Tiled config source last gaps scans) :
    (scans.map (·.start.offset)).Pairwise (· < ·) := by
  induction h with
  | endOfInput => exact List.pairwise_singleton _ _
  | lexeme hkind hfirst hscans ih =>
    rw [List.map_cons, List.pairwise_cons]
    refine ⟨?_, ih⟩
    intro offset hoffset
    obtain ⟨scan, hscan, rfl⟩ := List.mem_map.1 hoffset
    exact Nat.lt_of_lt_of_le (hfirst.start_lt hkind) (hscans.le_start_of_mem hscan)

end Tiled

namespace Scanner

/-! ## From one scan to all -/

variable {config : Config} {source : Source}

/-- What a scan tells of a source that the scanner has come `passed` characters into. -/
theorem Step.standsAt {s after : Scanner} {scan : Scan} {passed skipped taken : Nat}
    (h : s.Step scan after skipped taken) (hs : s.cursor = source.cursor.advance passed) :
    scan.StandsAt s.config source s.position.offset (plainText (s.cursor.rest.take skipped)) := by
  have hadvance : ∀ k, s.cursor.advance k = source.cursor.advance (passed + k) := by
    intro k
    rw [hs, Cursor.advance_advance]
  have hposition : s.position = (source.cursor.advance passed).position := by
    rw [position, hs]
  have hstart : scan.start = (source.cursor.advance (passed + skipped)).position := by
    rw [h.start_eq, hadvance]
  have hstop : scan.stop = (source.cursor.advance (passed + skipped + taken)).position := by
    rw [h.stop_eq, hadvance, Nat.add_assoc]
  have hrest : s.cursor.rest.drop skipped = source.cursor.rest.drop (passed + skipped) := by
    rw [hs, Cursor.advance_rest, List.drop_drop]
  have hgrow := source.offset_advance_add (passed + skipped) taken
  rw [← hstart, ← hstop, ← hrest] at hgrow
  constructor
  · rw [hposition, hstart, source.offset_advance_add]
    omega
  · rw [hposition, hstart, source.slice?_advance, hs]
    rfl
  · refine ⟨_, ?_, h.gap⟩
    rw [hstart, hrest]
    exact source.slice?_advance_size _
  · rw [hstart, hstop, source.slice?_advance, h.text_eq, hrest]
  · intro hkind
    have hpos := h.lexeme hkind
    have hlength : ((s.cursor.rest.drop skipped).take taken).length = taken := by
      rw [List.length_take, Nat.min_eq_left h.taken_le]
    have hle := length_le_byteSize (plainText ((s.cursor.rest.drop skipped).take taken))
    rw [length_plainText, hlength] at hle
    omega
  · intro hkind
    have hend : (source.cursor.advance (passed + skipped)).rest = [] := by
      rw [Cursor.advance_rest, ← hrest]
      exact h.endOfInput hkind
    have hsize := source.offset_advance_of_rest_eq_nil hend
    rw [← hstart] at hsize
    rw [h.endOfInput hkind, List.take_nil] at hgrow
    refine ⟨hsize, ?_, ?_⟩
    · rw [hgrow, hsize]
      rfl
    · rw [h.text_eq, h.endOfInput hkind, List.take_nil]
      rfl

/-- What was skipped and the text of the lexeme are what a scan passes. -/
theorem Step.take_append_text {s : Scanner} {scan : Scan} {after : Scanner} {skipped taken : Nat}
    (h : s.Step scan after skipped taken) :
    plainText (s.cursor.rest.take skipped) ++ scan.text =
      plainText (s.cursor.rest.take (skipped + taken)) := by
  rw [h.text_eq, ← plainText_append, List.take_add]

/-- Scanning on from anywhere in a source, up to its end, tiles what is left of it. -/
theorem exists_tiled_scanAll (s : Scanner) {passed : Nat}
    (hs : s.cursor = source.cursor.advance passed) :
    ∃ gaps, Tiled s.config source s.position.offset gaps s.scanAll.1 ∧
      plainText s.cursor.rest = interleave gaps s.scanAll.1 := by
  induction s using run_induction generalizing passed with
  | endOfInput s hend =>
    obtain ⟨skipped, taken, hstep⟩ := s.exists_step
    rw [scanAll_of_endOfInput hend]
    refine ⟨_, .endOfInput hend (hstep.standsAt hs), ?_⟩
    have hall := hstep.take_append_text
    rw [hstep.take_eq_rest hend] at hall
    simp [interleave, hall]
  | lexeme s hlexeme ih =>
    -- what a lexeme leaves to read is tiled from where it stops
    obtain ⟨skipped, taken, hstep⟩ := s.exists_step
    have hafter : s.scan.2.cursor = source.cursor.advance (passed + (skipped + taken)) := by
      rw [hstep.cursor_eq, hs, Cursor.advance_advance]
    obtain ⟨gaps, htiled, hrest⟩ := ih hafter
    have hstop : s.scan.2.position.offset = s.scan.1.stop.offset := by
      rw [position, hstep.cursor_eq, hstep.stop_eq]
    rw [hstep.config_eq, hstop] at htiled
    rw [scanAll_of_lexeme hlexeme]
    refine ⟨_, .lexeme hlexeme (hstep.standsAt hs) htiled, ?_⟩
    rw [hstep.cursor_eq, Cursor.advance_rest] at hrest
    have hsplit := List.take_append_drop (skipped + taken) s.cursor.rest
    rw [← hsplit, plainText_append, ← hstep.take_append_text, hrest]
    simp [interleave]

/-- Lexemes and gaps tile a source: each scan up to the first that tells the end of the input shows
the slice of the source where it stands, nothing but gaps lies between them, and with the byte order
mark before them they are the source. -/
theorem scanAll_tiled (config : Config) (source : Source) :
    let scans := ((Scanner.ofSource config source).scanAll).1
    ∃ gaps, Tiled config source source.markSize gaps scans ∧
      source.text = plainText source.mark ++ interleave gaps scans ∧
      (scans.map (·.start.offset)).Pairwise (· < ·) := by
  intro scans
  have hcursor : (ofSource config source).cursor = source.cursor.advance 0 := rfl
  obtain ⟨gaps, htiled, hrest⟩ := exists_tiled_scanAll (ofSource config source) hcursor
  refine ⟨gaps, htiled, ?_, htiled.pairwise_start⟩
  rw [Source.text, source.chars_eq, plainText_append, ← hrest]
  rfl

/-- A comment that is left out belongs to a gap. -/
example : ((ofSource .full (.ofString "a /* b */ 1")).scanAll).1.map Scan.text =
    [['a'], ['1'], []] := by
  cbv

end Scanner

end Lexis
