import Lexis.Proofs.Scanner.Alongside
import Lexis.Proofs.Scanner.Comments
import Lexis.Proofs.Source.Chunks

/-!
# Byte order marks

A byte order mark in front of bytes that have none is noted, and otherwise only shifts offsets: what
follows it is decoded to the same characters, and scanned alongside the source without it. Anywhere
else the character is one like any other. As it is no whitespace, it belongs to a lexeme, or to a
comment that is left out (`Source.exists_scan_at_byteOrderMark`).
-/

namespace Lexis

/-! ## Lexemes of all but whitespace -/

/-- Where comments are kept, a gap has nothing but whitespace in it. -/
theorem Gap.isWhitespace_of_mem {config : Config} (hkeeps : config.mode.has .skipComments = false)
    {gap rest : List Char} (h : Gap config gap rest) :
    ∀ c ∈ gap, config.isWhitespace c = true := by
  have hmode : ¬ config.mode.leavesOutComments = true := by
    simp [Mode.leavesOutComments, hkeeps]
  induction h with
  | nil => exact fun c hc => by cases hc
  | whitespace hc _ ih => exact List.forall_mem_cons.2 ⟨hc, ih⟩
  | lineComment hleaves => exact absurd hleaves hmode
  | blockComment hleaves => exact absurd hleaves hmode
  | openComment hleaves => exact absurd hleaves hmode

theorem byteSize_le_of_isPrefix {a b : List SourceChar} (h : a <+: b) :
    byteSize (plainText a) ≤ byteSize (plainText b) := by
  obtain ⟨more, rfl⟩ := h
  rw [plainText_append, byteSize_append]
  exact Nat.le_add_right _ _

namespace Scanner

variable {c : SourceChar} {before after : List SourceChar}

/-- A scan that keeps comments and passes a character that is no whitespace has it in its lexeme. -/
theorem Step.over {s t : Scanner} {scan : Scan} {skipped taken : Nat}
    (h : s.Step scan t skipped taken) (hkeeps : s.config.mode.has .skipComments = false)
    (hc : s.config.isWhitespace c.char = false) (hrest : s.cursor.rest = before ++ c :: after)
    (hpassed : before.length < skipped + taken) :
    scan.start.offset ≤ s.position.offset + byteSize (plainText before) ∧
      s.position.offset + byteSize (plainText before) < scan.stop.offset := by
  have hsplit : s.cursor.rest = before ++ [c] ++ after := by
    rw [hrest, List.append_assoc]
    rfl
  have hthrough {n : Nat} (hn : before.length < n) : before ++ [c] <+: s.cursor.rest.take n := by
    refine List.prefix_take_iff.2 ⟨⟨after, hsplit.symm⟩, ?_⟩
    rw [List.length_append, List.length_singleton]
    exact hn
  have hskipped : skipped ≤ before.length := by
    by_contra hlong
    have hmem : c ∈ s.cursor.rest.take skipped :=
      (hthrough (Nat.not_le.1 hlong)).subset (List.mem_append_right _ List.mem_cons_self)
    rw [h.gap.isWhitespace_of_mem hkeeps c.char (List.mem_map_of_mem hmem)] at hc
    cases hc
  have hstart : s.cursor.rest.take skipped <+: before := by
    refine List.prefix_of_prefix_length_le (List.take_prefix _ _) ⟨c :: after, hrest.symm⟩ ?_
    rw [List.length_take]
    omega
  have hle := byteSize_le_of_isPrefix hstart
  have hlt := byteSize_le_of_isPrefix (hthrough hpassed)
  have hpos : 0 < byteSize (plainText [c]) := c.size_pos
  rw [plainText_append, byteSize_append] at hlt
  rw [h.start_eq, h.stop_eq, Cursor.advance_position, Cursor.advance_position,
    Position.locate_offset, Position.locate_offset, position]
  omega

/-- Where comments are kept, each character that is no whitespace belongs to a lexeme. -/
theorem exists_scan_over {s : Scanner} (hkeeps : s.config.mode.has .skipComments = false)
    (hc : s.config.isWhitespace c.char = false) (hrest : s.cursor.rest = before ++ c :: after) :
    ∃ scan ∈ s.scanAll.1,
      scan.start.offset ≤ s.position.offset + byteSize (plainText before) ∧
        s.position.offset + byteSize (plainText before) < scan.stop.offset := by
  induction s using run_induction generalizing before with
  | endOfInput s hend =>
    obtain ⟨skipped, taken, hstep⟩ := s.exists_step
    have hpassed : before.length < skipped + taken := by
      have hlength := congrArg List.length (hstep.take_eq_rest hend)
      rw [List.length_take, hrest, List.length_append, List.length_cons] at hlength
      omega
    rw [scanAll_of_endOfInput hend]
    exact ⟨_, List.mem_singleton_self _, hstep.over hkeeps hc hrest hpassed⟩
  | lexeme s hlexeme ih =>
    obtain ⟨skipped, taken, hstep⟩ := s.exists_step
    rw [scanAll_of_lexeme hlexeme]
    by_cases hpassed : before.length < skipped + taken
    · exact ⟨_, List.mem_cons_self, hstep.over hkeeps hc hrest hpassed⟩
    -- what is before the character is passed first, and the rest is scanned on from there
    · have htake : s.cursor.rest.take (skipped + taken) = before.take (skipped + taken) := by
        rw [hrest, List.take_append_of_le_length (Nat.not_lt.1 hpassed)]
      have hposition : s.scan.2.position.offset +
            byteSize (plainText (before.drop (skipped + taken))) =
          s.position.offset + byteSize (plainText before) := by
        rw [position, hstep.cursor_eq, Cursor.advance_position, Position.locate_offset, htake,
          Nat.add_assoc, ← byteSize_append, ← plainText_append, List.take_append_drop, position]
      have hleft : s.scan.2.cursor.rest = before.drop (skipped + taken) ++ c :: after := by
        rw [hstep.cursor_eq, Cursor.advance_rest, hrest,
          List.drop_append_of_le_length (Nat.not_lt.1 hpassed)]
      obtain ⟨scan, hmem, hover⟩ := ih hkeeps hc hleft
      rw [hposition] at hover
      exact ⟨scan, List.mem_cons_of_mem _ hmem, hover⟩

end Scanner

/-! ## The mark elsewhere -/

namespace Config

/-- The configuration with comments as lexemes, where they are recognised. -/
def keepingComments (config : Config) : Config :=
  { config with mode := config.mode.difference (.ofFeatures [.skipComments]) }

theorem has_skipComments_keepingComments (config : Config) :
    config.keepingComments.mode.has .skipComments = false := by
  simp [keepingComments, Mode.has_difference]

theorem keepingComments_differs {config : Config} (h : config.mode.has .skipComments = true) :
    config.keepingComments.DifferInComments config where
  isWhitespace_eq := fun _ => rfl
  has_eq := by
    intro f hf
    simp [keepingComments, Mode.has_difference, hf]
  keeps := config.has_skipComments_keepingComments
  leaves := h

theorem isWhitespace_byteOrderMark (config : Config) :
    config.isWhitespace Source.byteOrderMark = false := by
  have hlarge : ¬ Source.byteOrderMark.toNat < 64 := by decide
  rw [isWhitespace, decide_eq_false hlarge, Bool.false_and]

end Config

/-- Comments apart, what is told with comments kept is told anyway. -/
theorem Scanner.told_of_keepingComments {config : Config} {source : Source} {scan : Scan}
    (h : scan ∈ (ofSource config.keepingComments source).scanAll.1) (hkind : scan.kind ≠ .comment) :
    scan.told ∈ (ofSource config source).scanAll.1.map Scan.told := by
  cases hskips : config.mode.has .skipComments with
  | false =>
    have hconfig : config.keepingComments = config :=
      congrArg (Config.mk · config.whitespace) (Mode.difference_eq_self hskips)
    rw [hconfig] at h
    exact List.mem_map_of_mem h
  | true =>
    have htold := (scanAll_leavingOut (s := .ofSource config.keepingComments source)
      (t := .ofSource config source) (Config.keepingComments_differs hskips) rfl).1
    rw [htold]
    exact List.mem_map_of_mem (List.mem_filter.2 ⟨h, by simp [hkind]⟩)

namespace Source

/-- The character of a byte order mark that does not come first belongs to a lexeme, or to a comment
that is left out. -/
theorem exists_scan_at_byteOrderMark (config : Config) {source : Source}
    {before after : List SourceChar} (hchars : source.chars = before ++ .valid byteOrderMark :: after)
    (hbefore : before ≠ []) :
    ∃ scan ∈ (Scanner.ofSource config.keepingComments source).scanAll.1,
      scan.start.offset ≤ byteSize (plainText before) ∧
        byteSize (plainText before) < scan.stop.offset ∧
        (scan.kind = .comment ∨
          scan.told ∈ (Scanner.ofSource config source).scanAll.1.map Scan.told) := by
  obtain ⟨passed, rfl⟩ := mark_isPrefix hchars hbefore
  have hrest : source.cursor.rest = passed ++ .valid byteOrderMark :: after := by
    have hsplit := source.chars_eq.symm.trans hchars
    rw [List.append_assoc] at hsplit
    exact List.append_cancel_left hsplit
  have hposition : (Scanner.ofSource config.keepingComments source).position.offset +
      byteSize (plainText passed) = byteSize (plainText (source.mark ++ passed)) := by
    rw [plainText_append, byteSize_append, ← markSize_eq]
    rfl
  obtain ⟨scan, hmem, hstart, hstop⟩ :=
    Scanner.exists_scan_over (c := .valid byteOrderMark)
      (s := .ofSource config.keepingComments source) config.has_skipComments_keepingComments
      config.keepingComments.isWhitespace_byteOrderMark hrest
  rw [hposition] at hstart hstop
  refine ⟨scan, hmem, hstart, hstop, ?_⟩
  by_cases hcomment : scan.kind = .comment
  · exact .inl hcomment
  · exact .inr (Scanner.told_of_keepingComments hmem hcomment)

/-! ## The mark at the start -/

theorem encodeChar_byteOrderMark :
    String.utf8EncodeChar byteOrderMark = [0xEF, 0xBB, 0xBF] := by
  decide

theorem chars_ofBytes_mark (bytes : List UInt8) :
    (ofBytes ([0xEF, 0xBB, 0xBF] ++ bytes)).chars =
      .valid byteOrderMark :: (ofBytes bytes).chars := by
  rw [← encodeChar_byteOrderMark]
  exact Utf8.decode_encodeChar_append byteOrderMark bytes

/-- Only bytes that begin with a byte order mark are read with one. -/
theorem isMarked_ofBytes {bytes : List UInt8} (h : ¬ [0xEF, 0xBB, 0xBF] <+: bytes) :
    (ofBytes bytes).isMarked = false := by
  rw [isMarked, beq_eq_false_iff_ne]
  intro hhead
  obtain ⟨later, hlater⟩ := List.head?_eq_some_iff.1 hhead
  have hbytes : Utf8.encode (ofBytes bytes).chars = bytes := Utf8.encode_decode bytes
  refine h ⟨Utf8.encode later, ?_⟩
  rw [← hbytes, hlater, ← encodeChar_byteOrderMark]
  rfl

theorem isMarked_of_chars_eq_cons {s : Source} {rest : List SourceChar}
    (h : s.chars = .valid byteOrderMark :: rest) : s.isMarked = true := by
  rw [isMarked, h]
  rfl

section
variable {plain marked : Source} (hplain : plain.isMarked = false)
  (hmarked : marked.chars = .valid byteOrderMark :: plain.chars)
include hplain hmarked

/-- The mark is noted first, and all else further on. -/
theorem issues_marked : marked.issues = ⟨.byteOrderMark, 0, 3⟩ ::
    plain.issues.map (fun issue => { issue with position := issue.position + 3 }) := by
  rw [issues, issues, hplain, isMarked_of_chars_eq_cons hmarked, hmarked,
    if_neg Bool.false_ne_true, List.nil_append, ← invalidFrom_add]
  rfl

/-- A source with a byte order mark in front is scanned alongside the one without it. -/
theorem alongside_marked (config : Config) :
    (plain.scannerAfter config 0).Alongside ⟨3, 1, 1⟩ [] (marked.scannerAfter config 0) := by
  have hcursor : marked.cursor = ⟨marked, plain.chars, ⟨3, 1, 1⟩⟩ := by
    rw [cursor, markSize, isMarked_of_chars_eq_cons hmarked, hmarked]
    rfl
  constructor
  · rfl
  · show (Reading.ofCursor plain.cursor).Alongside ⟨3, 1, 1⟩ [] (.ofCursor marked.cursor)
    rw [cursor_of_not_isMarked hplain, hcursor]
    exact ⟨Position.isCounted_start, (List.append_nil _).symm,
      (Position.start_movedTo ⟨3, 1, 1⟩).symm, rfl⟩

end

/-- A byte order mark in front of bytes that do not begin with one is noted and shifts all offsets,
and makes no other difference. Elsewhere it is never passed over as a mark. -/
theorem byteOrderMark_shifts (config : Config) (bytes : List UInt8) :
    (¬ [0xEF, 0xBB, 0xBF] <+: bytes →
      let plain := ofBytes bytes
      let marked := ofBytes ([0xEF, 0xBB, 0xBF] ++ bytes)
      marked.text = byteOrderMark :: plain.text ∧
        marked.issues = ⟨.byteOrderMark, 0, 3⟩ ::
          plain.issues.map (fun issue => { issue with position := issue.position + 3 }) ∧
        ∀ n, marked.nthScan config n =
          (plain.nthScan config n).relocate fun p => ⟨p.offset + 3, p.line, p.column⟩) ∧
      ∀ (source : Source) (before after : List SourceChar),
        source.chars = before ++ .valid byteOrderMark :: after → before ≠ [] →
        ∃ scan ∈ (Scanner.ofSource config.keepingComments source).scanAll.1,
          scan.start.offset ≤ byteSize (plainText before) ∧
            byteSize (plainText before) < scan.stop.offset ∧
            (scan.kind = .comment ∨
              scan.told ∈ (Scanner.ofSource config source).scanAll.1.map Scan.told) := by
  refine ⟨?_, fun source before after => exists_scan_at_byteOrderMark config⟩
  intro hmark plain marked
  have hplain : plain.isMarked = false := isMarked_ofBytes hmark
  have hmarked : marked.chars = .valid byteOrderMark :: plain.chars := chars_ofBytes_mark bytes
  refine ⟨?_, issues_marked hplain hmarked, ?_⟩
  · rw [text, hmarked]
    rfl
  · intro n
    have hscan := nthScan_of_alongside (alongside_marked hplain hmarked config)
      (n := n) fun _ => rfl
    -- the text behind the mark starts where a line does
    have hmoved : (Position.movedTo · ⟨3, 1, 1⟩) =
        fun p : Position => ⟨p.offset + 3, p.line, p.column⟩ :=
      funext fun p => p.movedTo_lineStart 3
    rwa [Nat.zero_add, hmoved] at hscan

/-- A byte order mark before a byte that is no UTF-8 is noted before it. One on the next line is
scanned as the character that it is. -/
theorem byteOrderMark_shifts_broken_text :
    let bytes := [0xFF, 0x0A, 0xEF, 0xBB, 0xBF, 0x31]
    let plain := ofBytes bytes
    let marked := ofBytes ([0xEF, 0xBB, 0xBF] ++ bytes)
    marked.issues = [⟨.byteOrderMark, 0, 3⟩, ⟨.invalidUtf8, 3, 1⟩] ∧
      (marked.nthScan .full 1).start = ⟨7, 2, 1⟩ ∧
      (∀ n, marked.nthScan .full n =
        (plain.nthScan .full n).relocate fun p => ⟨p.offset + 3, p.line, p.column⟩) ∧
      ∃ scan ∈ (Scanner.ofSource Config.full.keepingComments plain).scanAll.1,
        scan.start.offset ≤ 4 ∧ 4 < scan.stop.offset ∧ (scan.kind = .comment ∨
          scan.told ∈ (Scanner.ofSource .full plain).scanAll.1.map Scan.told) := by
  intro bytes plain marked
  obtain ⟨hmarked, helsewhere⟩ := byteOrderMark_shifts .full bytes
  obtain ⟨-, -, hscans⟩ := hmarked (by decide)
  have hchars : plain.chars =
      [.replaced [0xFF], .valid '\n'] ++ .valid byteOrderMark :: [.valid '1'] := by
    decide +kernel
  exact ⟨by decide +kernel, by decide +kernel, hscans,
    helsewhere plain [.replaced [0xFF], .valid '\n'] [.valid '1'] hchars (by decide)⟩

end Source

end Lexis
