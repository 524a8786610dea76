import Lexis.Proofs.Lexeme.Alongside
import Lexis.Proofs.Scanner.Lexeme
import Lexis.Proofs.Source.Bytes

/-!
# Scanning the same text in two places

A scanner keeps nothing from one scan to the next but the place that it has come to. So two scanners
that have the same text to read scan the same, at corresponding positions
(`Scanner.Alongside.scan`), as often as they are asked (`Source.nthScan_of_alongside`). What a scan
finds thus depends on nothing but what is left of a text (`Source.nthScan_add`), and text that is
appended makes no difference to a lexeme that ended before it (`Source.nthScan_append`).
-/

namespace Lexis

/-- The scan at other positions. -/
def Scan.relocate (f : Position → Position) (scan : Scan) : Scan :=
  { scan with
    start := f scan.start
    stop := f scan.stop
    reports := scan.reports.map (Report.relocate f) }

/-- Positions that stay where they are. -/
theorem Scan.relocate_id (scan : Scan) : scan.relocate id = scan := by
  have hreports : scan.reports.map (Report.relocate id) = scan.reports :=
    List.map_id scan.reports
  rw [relocate, hreports]
  rfl

/-! ## One scan -/

/-- `t` scans what `s` scans, in a source where the text starts at `origin`, and `more` follows it.
-/
structure Scanner.Alongside (origin : Position) (more : List SourceChar) (s t : Scanner) :
    Prop where
  config_eq : t.config = s.config
  reading : (Reading.ofCursor s.cursor).Alongside origin more (.ofCursor t.cursor)

/-- Only the cursor is kept from one reading to the next. -/
theorem Reading.Alongside.ofCursor {origin : Position} {more : List SourceChar} {r s : Reading}
    (h : r.Alongside origin more s) :
    (Reading.ofCursor r.cursor).Alongside origin more (.ofCursor s.cursor) where
  counted := h.counted
  rest_eq := h.rest_eq
  position_eq := h.position_eq
  reports_eq := rfl

/-- Both scan the same, unless that takes all the text and more follows. -/
theorem Scanner.Alongside.scan {origin : Position} {more : List SourceChar} {s t : Scanner}
    (h : s.Alongside origin more t) (hmore : s.scan.2.cursor.rest = [] → more = []) :
    t.scan.1 = s.scan.1.relocate (·.movedTo origin) ∧ s.scan.2.Alongside origin more t.scan.2 := by
  obtain ⟨hlexeme, hbefore, hafter⟩ :=
    Reading.alongside_next s.config (.ofCursor s.cursor) _ h.reading hmore
  constructor
  · simp only [Scanner.scan, Scan.relocate, Found.kind, Found.text]
    rw [h.config_eq, hlexeme, hbefore.position_eq, hafter.position_eq, hafter.reports_eq]
  · refine ⟨h.config_eq, ?_⟩
    simp only [Scanner.scan]
    rw [h.config_eq]
    exact hafter.ofCursor

/-! ## Many -/

namespace Source

variable {origin : Position} {more : List SourceChar} {config : Config} {source other : Source}

theorem scannerAfter_succ (source : Source) (config : Config) (n : Nat) :
    source.scannerAfter config (n + 1) = (source.scannerAfter config n).scan.2 := rfl

/-- Once nothing is left to read, nothing ever is. -/
theorem rest_scannerAfter_eq_nil {m n : Nat} (hle : m ≤ n)
    (h : (source.scannerAfter config m).cursor.rest = []) :
    (source.scannerAfter config n).cursor.rest = [] := by
  induction n, hle using Nat.le_induction with
  | base => exact h
  | succ n _ ih =>
    rw [scannerAfter_succ, Scanner.scan_of_rest_eq_nil ih]
    exact ih

/-- Two sources are scanned alike from where one starts and the other has come to. -/
theorem alongside_scannerAfter {m : Nat}
    (h : (source.scannerAfter config 0).Alongside origin more (other.scannerAfter config m))
    {n : Nat} (hmore : (source.scannerAfter config n).cursor.rest = [] → more = []) :
    (source.scannerAfter config n).Alongside origin more (other.scannerAfter config (m + n)) := by
  induction n with
  | zero => exact h
  | succ n ih =>
    have hbefore := ih fun hnil => hmore (rest_scannerAfter_eq_nil (Nat.le_succ n) hnil)
    exact (hbefore.scan hmore).2

/-- What is scanned of the one is scanned of the other at corresponding positions. -/
theorem nthScan_of_alongside {m : Nat}
    (h : (source.scannerAfter config 0).Alongside origin more (other.scannerAfter config m))
    {n : Nat} (hmore : (source.scannerAfter config (n + 1)).cursor.rest = [] → more = []) :
    other.nthScan config (m + n) = (source.nthScan config n).relocate (·.movedTo origin) := by
  have hbefore := alongside_scannerAfter h fun hnil =>
    hmore (rest_scannerAfter_eq_nil (Nat.le_succ n) hnil)
  exact (hbefore.scan hmore).1

/-- A scanner that has been made for a text is alongside any that has come to a place where that
text, and no more than `more`, is left. -/
theorem alongside_ofText {text : List Char} (hmark : text.head? ≠ some byteOrderMark) {m : Nat}
    (hrest : (other.scannerAfter config m).cursor.rest = text.map .valid ++ more)
    (hposition : (other.scannerAfter config m).position = origin) :
    ((ofText text).scannerAfter config 0).Alongside origin more (other.scannerAfter config m) := by
  obtain ⟨passed, hconfig, hcursor⟩ := other.exists_scannerAfter config m
  have hfresh : ((ofText text).scannerAfter config 0).cursor =
      ⟨ofText text, text.map .valid, .start⟩ := cursor_ofText hmark
  constructor
  · exact hconfig
  · rw [hfresh]
    exact ⟨Position.isCounted_start, hrest,
      hposition.trans (Position.start_movedTo origin).symm, rfl⟩

/-! ## What a scan depends on -/

/-- What is left of a text was all encoded well. -/
theorem map_valid_drop_rest (text : List Char) (n : Nat) :
    (plainText ((ofText text).cursor.rest.drop n)).map SourceChar.valid =
      (ofText text).cursor.rest.drop n := by
  have hchars : text.map SourceChar.valid = (ofText text).mark ++ (ofText text).cursor.rest :=
    (ofText text).chars_eq
  have hrest : (ofText text).cursor.rest =
      (text.drop (ofText text).mark.length).map SourceChar.valid := by
    rw [List.map_drop, hchars, List.drop_left]
  rw [hrest, ← List.map_drop, plainText_map_valid]

/-- Scanning depends on nothing but what is left of a text. Wherever a scanner has come to, and
unless a byte order mark stands there, the scans that follow are those of a scanner that starts on
what is left, with all positions counted on from that place. -/
theorem nthScan_add (config : Config) (text : List Char) (n : Nat) :
    let source := ofText text
    let origin := (source.scannerAfter config n).position
    ∃ left, source.slice? origin.offset source.size = some left ∧
      (left.head? ≠ some byteOrderMark →
        ∀ k, source.nthScan config (n + k) =
          ((ofText left).nthScan config k).relocate (·.movedTo origin)) := by
  intro source origin
  obtain ⟨passed, -, hcursor⟩ := source.exists_scannerAfter config n
  have horigin : origin = (source.cursor.advance passed).position :=
    congrArg Cursor.position hcursor
  refine ⟨plainText (source.cursor.rest.drop passed), ?_, ?_⟩
  · rw [horigin]
    exact source.slice?_advance_size passed
  · intro hmark k
    have hrest : (source.scannerAfter config n).cursor.rest =
        (plainText (source.cursor.rest.drop passed)).map .valid ++ [] := by
      rw [hcursor, List.append_nil, map_valid_drop_rest, Cursor.advance_rest]
    exact nthScan_of_alongside (alongside_ofText hmark hrest rfl) fun _ => rfl

/-- A number and a literal behind an identifier on the second line of a text are scanned as if the
identifier and the line before it were not there, the number further to the right and the literal
further down. -/
theorem nthScan_add_on_second_line :
    let source := ofText ['\n', 'é', ' ', '1', '_', '\n', '\x22', 'a']
    let left := ofText [' ', '1', '_', '\n', '\x22', 'a']
    (source.scannerAfter .full 1).position = ⟨3, 2, 2⟩ ∧
      (∀ k, source.nthScan .full (1 + k) =
        (left.nthScan .full k).relocate (·.movedTo ⟨3, 2, 2⟩)) ∧
      (left.nthScan .full 0).reports = [⟨⟨2, 1, 3⟩, .invalidSeparator⟩] ∧
      (source.nthScan .full 1).reports = [⟨⟨5, 2, 4⟩, .invalidSeparator⟩] ∧
      (left.nthScan .full 1).start = ⟨4, 2, 1⟩ ∧
      (source.nthScan .full 2).start = ⟨7, 3, 1⟩ := by
  intro source left
  have horigin : (source.scannerAfter .full 1).position = ⟨3, 2, 2⟩ := by decide +kernel
  obtain ⟨rest, hslice, hscans⟩ :=
    nthScan_add .full ['\n', 'é', ' ', '1', '_', '\n', '\x22', 'a'] 1
  have hrest : rest = [' ', '1', '_', '\n', '\x22', 'a'] := by
    refine Option.some.inj (hslice.symm.trans ?_)
    decide +kernel
  subst hrest
  have hmoved := hscans (by decide)
  have hmoved' : ∀ k, source.nthScan .full (1 + k) =
      (left.nthScan .full k).relocate (·.movedTo ⟨3, 2, 2⟩) := by
    rw [← horigin]
    exact hmoved
  exact ⟨horigin, hmoved', by decide +kernel, by decide +kernel, by decide +kernel,
    by decide +kernel⟩

/-- A text is scanned alongside itself with more behind it. -/
theorem alongside_append (config : Config) {text : List Char} (htext : text ≠ [])
    (more : List Char) :
    ((ofText text).scannerAfter config 0).Alongside .start (more.map .valid)
      ((ofText (text ++ more)).scannerAfter config 0) := by
  obtain ⟨c, rest, rfl⟩ := List.exists_cons_of_ne_nil htext
  have hcursor : (ofText (c :: rest ++ more)).cursor = ⟨ofText (c :: rest ++ more),
      (ofText (c :: rest)).cursor.rest ++ more.map .valid, (ofText (c :: rest)).cursor.position⟩ := by
    by_cases hc : c = byteOrderMark
    · simp [cursor, isMarked, markSize, ofText, hc]
    · simp [cursor, isMarked, markSize, ofText, hc]
  have hcounted : (ofText (c :: rest)).cursor.position.IsCounted :=
    ⟨Nat.le_refl 1, Nat.le_refl 1⟩
  constructor
  · rfl
  · show (Reading.ofCursor (ofText (c :: rest)).cursor).Alongside .start (more.map .valid)
      (.ofCursor (ofText (c :: rest ++ more)).cursor)
    rw [hcursor]
    exact ⟨hcounted, rfl, (Position.movedTo_start _).symm, rfl⟩

/-- Text that is appended does not change what was scanned before the end. As long as a scanner has
not come to the end of a text, each of its scans is the same with more text behind. -/
theorem nthScan_append (config : Config) (text more : List Char) (k : Nat)
    (h : ((ofText text).scannerAfter config k).position.offset < (ofText text).size) :
    ∀ i < k, (ofText (text ++ more)).nthScan config i = (ofText text).nthScan config i := by
  intro i hi
  have htext : text ≠ [] := by
    rintro rfl
    exact Nat.not_lt_zero _ h
  have hleft : ((ofText text).scannerAfter config (i + 1)).cursor.rest ≠ [] := by
    intro hnil
    obtain ⟨passed, -, hcursor⟩ := (ofText text).exists_scannerAfter config k
    have hend := rest_scannerAfter_eq_nil hi hnil
    rw [hcursor] at hend
    rw [Scanner.position, hcursor] at h
    exact Nat.not_le.2 h (((ofText text).size_le_offset_iff passed).2 hend)
  have hscan := nthScan_of_alongside (alongside_append config htext more)
    fun hnil => absurd hnil hleft
  have hstart : (Position.movedTo · .start) = id := funext Position.movedTo_start
  rwa [Nat.zero_add, hstart, Scan.relocate_id] at hscan

/-- What is appended makes a comment of a slash at the end, but nothing of the number before it. -/
theorem nthScan_append_behind_slash :
    let text := ['1', '.', '5', ' ', '/']
    ((ofText text).scannerAfter .full 1).position.offset = 3 ∧
      (∀ i < 1, (ofText (text ++ ['/'])).nthScan .full i = (ofText text).nthScan .full i) ∧
      (ofText (text ++ ['/'])).nthScan .full 1 ≠ (ofText text).nthScan .full 1 := by
  intro text
  have hoffset : ((ofText text).scannerAfter .full 1).position.offset = 3 := by decide +kernel
  have hlt : ((ofText text).scannerAfter .full 1).position.offset < (ofText text).size := by
    rw [hoffset]
    decide
  exact ⟨hoffset, nthScan_append .full text ['/'] 1 hlt, by decide +kernel⟩

end Source

end Lexis
