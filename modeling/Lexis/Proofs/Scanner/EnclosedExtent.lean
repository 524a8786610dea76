import Lexis.Proofs.Lexeme.Enclosure
import Lexis.Proofs.Lexeme.ReadingOrder
import Lexis.Proofs.Scanner.QuotedExtent

/-!
# Where raw strings and comments end

Where a raw string or a comment ends is told from the text from its opening on (`Scan.IsEnclosed`).
A comment that is left out ends where one that is kept would, and what lacks its mark is reported at
the end of the input, once (`Scan.Passes`). That scanners do so is `Source.enclosed_extent`.
-/

namespace Lexis

/-! ## Reading -/

namespace Reading

variable {fault : Fault}

/-- Text that no mark ends is reported where it ends, and nothing else is said of it. -/
theorem about_consumeEnclosed (hfault : fault.isOfCharacter = false) (r : Reading)
    (mark : List Char) (f : Fault) (e : Enclosed) :
    (r.consumeEnclosed mark f e).about fault = r.about fault ++
      if (if e.closed then none else some f) = some fault then
        [⟨(r.consumeEnclosed mark f e).position, fault⟩] else [] := by
  have hskip : (r.skip (e.charsThrough mark).length).about fault = r.about fault := by
    rw [skip_eq_bumps, about_bumps hfault]
  simp only [consumeEnclosed]
  cases e.closed with
  | true => simp [hskip]
  | false =>
    simp only [Bool.false_eq_true, if_false, Option.some.injEq]
    rw [report, about_reportAt, hskip]
    split
    · next hsame => rw [hsame]; rfl
    · rfl

/-- Of a raw string or a comment it is reported that its mark is missing, and nothing else. -/
theorem about_consume_of_enclosed (hfault : fault.isOfCharacter = false) (r : Reading) {l : Lexeme}
    (h : l.kind = .rawString ∨ l.isComment = true) :
    (r.consume l).about fault = r.about fault ++
      if l.openFault? = some fault then [⟨(r.consume l).position, fault⟩] else [] := by
  cases l with
  | rawString e => rw [consume, about_consumeEnclosed hfault, about_bump hfault, Lexeme.openFault?]
  | lineComment e =>
    rw [consume, skip_eq_bumps, about_bumps hfault, about_bump hfault]
    exact (List.append_nil _).symm
  | blockComment e =>
    rw [consume, about_consumeEnclosed hfault, about_bump hfault, about_bump hfault,
      Lexeme.openFault?]
  | number n =>
    rcases h with h | h
    · rcases Lexeme.kind_number n with hkind | hkind <;> rw [hkind] at h <;> cases h
    · cases h
  | _ => rcases h with h | h <;> cases h

/-- Whitespace that is skipped is passed over. -/
theorem skips_skipWhitespace {config : Config} {r : Reading} {n : Nat} {f : Option Fault}
    (h : config.Skips (plainText (r.skipWhitespace config).rest) n f) :
    config.Skips (plainText r.rest)
      ((r.rest.takeWhile fun c => config.isWhitespace c.char).length + n) f := by
  have hrest : (r.skipWhitespace config).rest =
      r.rest.dropWhile fun c => config.isWhitespace c.char := by
    rw [skipWhitespace_rest]
    exact (congrArg (List.drop _) List.takeWhile_append_dropWhile).symm.trans List.drop_left
  have hsplit : plainText r.rest =
      plainText (r.rest.takeWhile fun c => config.isWhitespace c.char) ++
        plainText (r.skipWhitespace config).rest := by
    rw [hrest, ← plainText_append, List.takeWhile_append_dropWhile]
  rw [hsplit, ← length_plainText]
  refine h.whitespace_append fun c hc => ?_
  obtain ⟨d, hd, rfl⟩ := List.mem_map.1 hc
  simpa using List.mem_takeWhile_imp hd

/-- Where a lexeme that is not left out stands behind whitespace, nothing more is passed over. -/
theorem skips_of_lexeme {config : Config} {c : SourceChar} {rest : List SourceChar}
    (hblank : config.isWhitespace c.char = false)
    (hshown : ¬ ((Lexeme.read config.mode c rest).isComment && config.mode.has .skipComments)) :
    config.Skips (plainText (c :: rest)) 0 none := by
  refine .nothing (fun d hd => ?_) fun hmode e he hopening => hshown ?_
  · cases hd
    exact hblank
  · rw [Mode.leavesOutComments, Bool.and_eq_true] at hmode
    have hopens : config.mode.opensComment (plainText (c :: rest)) = true := by
      rw [Mode.opensComment, hmode.1, Bool.true_and, Bool.or_eq_true, List.isPrefixOf_iff_prefix,
        List.isPrefixOf_iff_prefix]
      cases he with
      | lineComment => exact .inl hopening
      | blockComment => exact .inr hopening
    rw [(Lexeme.isComment_iff _).2 (Lexeme.kind_eq_comment_iff.2 hopens), hmode.2]
    rfl

/-- The reading has passed over `passed` characters of what was left before, as the text tells, and
no report but about characters was added other than that of the fault `f`. -/
structure Skipped (before : Reading) (config : Config) (r : Reading) (passed : Nat)
    (f : Option Fault) : Prop where
  isSkipped : config.Skips (plainText r.rest) passed f
  cursor_eq : before.cursor = r.cursor.advance passed
  rest_eq_nil : f ≠ none → before.rest = []
  about_eq : ∀ fault : Fault, fault.isOfCharacter = false →
    before.about fault = r.about fault ++
      if f = some fault then [⟨before.position, fault⟩] else []

/-- A comment that lacks its mark goes on to the end. -/
theorem consume_rest_of_openFault? {mode : Mode} {r : Reading} {c : SourceChar}
    {rest : List SourceChar} (hrest : r.rest = c :: rest)
    (hcomment : (Lexeme.read mode c rest).isComment = true)
    (hopen : (Lexeme.read mode c rest).openFault? ≠ none) :
    (r.consume (.read mode c rest)).rest = [] := by
  obtain ⟨e, -, hextends⟩ := Lexeme.extends_of_isComment hcomment
  obtain ⟨fault, hfault⟩ := Option.ne_none_iff_exists'.1 hopen
  rw [hfault] at hextends
  rw [(passage_consume_read mode hrest).rest_eq, hrest, List.drop_eq_nil_iff, hextends.eq_length,
    length_plainText]

/-- A comment that is left out adds its characters to what is passed over behind it. If it lacks its
mark, nothing comes behind it. -/
theorem Skipped.comment {config : Config} {r : Reading} {c : SourceChar} {rest : List SourceChar}
    {passed : Nat} {f : Option Fault} (hrest : (r.skipWhitespace config).rest = c :: rest)
    (hcomment : (Lexeme.read config.mode c rest).isComment = true)
    (hleft : config.mode.has .skipComments = true)
    (h : (((r.skipWhitespace config).consume (.read config.mode c rest)).next
      config).before.Skipped config
        ((r.skipWhitespace config).consume (.read config.mode c rest)) passed f) :
    ∃ passed' f', (((r.skipWhitespace config).consume (.read config.mode c rest)).next
      config).before.Skipped config r passed' f' := by
  obtain ⟨hskips, hcursor, hlast, habout⟩ := h
  obtain ⟨e, he, hextends⟩ := Lexeme.extends_of_isComment hcomment
  have hpassage := passage_consume_read config.mode hrest
  generalize hafter : (r.skipWhitespace config).consume (.read config.mode c rest) = after at *
  have hmode : config.mode.leavesOutComments = true := by
    rw [Mode.leavesOutComments, (Lexeme.read_of_isComment hcomment).1, hleft]
    rfl
  have hbehind : plainText after.rest =
      (plainText (c :: rest)).drop (Lexeme.read config.mode c rest).chars.length := by
    rw [hpassage.rest_eq, hrest]
    exact List.map_drop
  have hbefore : config.Skips (plainText (r.skipWhitespace config).rest)
      ((Lexeme.read config.mode c rest).chars.length + passed)
      ((Lexeme.read config.mode c rest).openFault?.or f) := by
    rw [hrest]
    refine .comment hmode he (fun d hd => ?_) hextends (hbehind ▸ hskips)
    cases hd
    exact not_isWhitespace_of_skipWhitespace hrest
  have hopen (h : (Lexeme.read config.mode c rest).openFault? ≠ none) :
      after.rest = [] ∧ f = none := by
    have hend := consume_rest_of_openFault? hrest hcomment h
    rw [hafter] at hend
    rw [hend, plainText_nil] at hskips
    exact ⟨hend, (hskips.unique (.nil config)).2⟩
  refine ⟨_, _, ⟨skips_skipWhitespace hbefore, ?_, fun hsome => ?_, fun fault hfault => ?_⟩⟩
  · have hblanks : (r.skipWhitespace config).cursor = r.cursor.advance _ := bumps_cursor r _
    rw [hcursor, hpassage.cursor_eq, hblanks, Cursor.advance_advance, Cursor.advance_advance]
  · by_cases hnone : (Lexeme.read config.mode c rest).openFault? = none
    · rw [hnone, Option.none_or] at hsome
      exact hlast hsome
    · rw [next_of_rest_eq_nil config (hopen hnone).1]
      exact (hopen hnone).1
  · have hblanks : (r.skipWhitespace config).about fault = r.about fault := about_bumps hfault r _
    rw [habout fault hfault, ← hafter,
      about_consume_of_enclosed hfault (r.skipWhitespace config) (.inr hcomment), hblanks,
      List.append_assoc]
    congr 1
    by_cases hnone : (Lexeme.read config.mode c rest).openFault? = none
    · rw [hnone, if_neg (Option.some_ne_none _).symm, List.nil_append, Option.none_or]
    · obtain ⟨hend, rfl⟩ := hopen hnone
      rw [hafter, next_of_rest_eq_nil config hend, if_neg (Option.some_ne_none _).symm,
        List.append_nil, Option.or_none]

/-- What is passed over before the next lexeme is told by the text that is left, and what is
reported of it is that the mark of a comment is missing. -/
theorem skipped_next (config : Config) (r : Reading) :
    ∃ passed f, (r.next config).before.Skipped config r passed f := by
  fun_induction next config r with
  | case1 r before hend =>
    have hskips := Config.Skips.nil config
    rw [← plainText_nil, ← hend] at hskips
    refine ⟨_, _, ⟨skips_skipWhitespace hskips, bumps_cursor r _, fun h => absurd rfl h,
      fun fault hfault => ?_⟩⟩
    exact (about_bumps hfault r _).trans (List.append_nil _).symm
  | case2 r before c rest hrest lexeme after hlt hleft ih =>
    obtain ⟨passed, f, hskipped⟩ := ih
    rw [Bool.and_eq_true] at hleft
    exact Skipped.comment hrest hleft.1 hleft.2 hskipped
  | case3 r before c rest hrest lexeme after hlt hshown =>
    have hskips := skips_of_lexeme (not_isWhitespace_of_skipWhitespace hrest) hshown
    rw [← hrest] at hskips
    refine ⟨_, _, ⟨skips_skipWhitespace hskips, bumps_cursor r _, fun h => absurd rfl h,
      fun fault hfault => ?_⟩⟩
    exact (about_bumps hfault r _).trans (List.append_nil _).symm

/-- What is found behind what is passed over is a lexeme that stands there, or the end. -/
theorem next_cases (config : Config) (r : Reading) :
    ((r.next config).before.rest = [] ∧
        r.next config = ⟨none, (r.next config).before, (r.next config).before⟩) ∨
      ∃ c rest, (r.next config).before.rest = c :: rest ∧
        r.next config = ⟨some (.read config.mode c rest), (r.next config).before,
          (r.next config).before.consume (.read config.mode c rest)⟩ := by
  fun_induction next config r with
  | case1 r before hend => exact .inl ⟨hend, rfl⟩
  | case2 r before c rest hrest lexeme after hlt hleft ih => exact ih
  | case3 r before c rest hrest lexeme after hlt hshown => exact .inr ⟨c, rest, hrest, rfl⟩

/-- Other lexemes are not reported for what comments are. -/
theorem about_consume_of_ne_comment {mode : Mode} {r : Reading} {c : SourceChar}
    {rest : List SourceChar} (hrest : r.rest = c :: rest)
    (h : (Lexeme.read mode c rest).kind ≠ .comment) :
    (r.consume (.read mode c rest)).about .commentNotTerminated =
      r.about .commentNotTerminated := by
  obtain ⟨-, made, hmade, -, hkinds⟩ := leads_consume_read mode hrest
  have hother : ¬ Fault.commentNotTerminated.IsOneOf (Lexeme.read mode c rest).faultKinds := by
    generalize Lexeme.read mode c rest = l at h
    cases l with
    | lineComment | blockComment => exact absurd rfl h
    | _ =>
      simp only [Lexeme.faultKinds]
      decide
  have hnone : made.filter (·.fault == .commentNotTerminated) = [] := by
    rw [List.filter_eq_nil_iff]
    intro report hmem hfault
    rw [beq_iff_eq] at hfault
    exact hother (hfault ▸ hkinds report hmem)
  rw [about, hmade, List.filter_append, hnone, List.append_nil]
  rfl

end Reading

/-! ## Scans -/

namespace Scan

/-- The scan tells of enclosed text, the first `taken` characters of `text`, which is the source
from the opening on. What is reported of it is at the end of the input, if anything. -/
structure IsEnclosed (scan : Scan) (e : Enclosure) (text : List Char) (taken : Nat)
    (fault? : Option Fault) : Prop where
  isExtent : e.Extends text taken fault?
  text_eq : scan.text = text.take taken
  stop_eq : scan.stop = scan.start.locate scan.text
  about_eq : ∀ fault : Fault, fault.isOfCharacter = false →
    scan.about fault = if fault? = some fault then [⟨scan.start.locate text, fault⟩] else []

/-- The scan goes on from a place where `text` is left. It passes over `passed` characters of it,
and with `fault?` a comment among them is at fault. -/
structure Passes (scan : Scan) (config : Config) (place : Position) (text : List Char)
    (passed : Nat) (fault? : Option Fault) : Prop where
  isSkipped : config.Skips text passed fault?
  skips_unique : ∀ n f, config.Skips text n f → n = passed ∧ f = fault?
  start_eq : scan.start = place.locate (text.take passed)
  rawString : scan.kind = .rawString →
    ∃ taken f, scan.IsEnclosed .rawString (text.drop passed) taken f
  comment : scan.kind = .comment →
    ∃ e : Enclosure, e.IsComment ∧ ∃ taken f, scan.IsEnclosed e (text.drop passed) taken f
  /-- A comment that is passed over and lacks its mark is reported at the end of the input. -/
  endOfInput : scan.kind = .endOfInput → scan.start = place.locate text ∧
    ∀ fault : Fault, fault.isOfCharacter = false →
      scan.about fault = if fault? = some fault then [⟨place.locate text, fault⟩] else []
  /-- Before a lexeme no comment lacks its mark, and none is reported. -/
  lexeme : scan.kind ≠ .endOfInput → fault? = none ∧
    ∀ report ∈ scan.reports, report.fault.isOfCharacter = false →
      scan.start.offset ≤ report.position.offset
  /-- Other lexemes are not reported for what comments are. -/
  other : scan.kind ≠ .endOfInput → scan.kind ≠ .comment → scan.about .commentNotTerminated = []

end Scan

namespace Scanner

variable {s : Scanner} {before : Reading} {c : SourceChar} {rest : List SourceChar}

/-- A raw string or a comment that is found is enclosed text. -/
theorem isEnclosed {e : Enclosure}
    (hnext : (Reading.ofCursor s.cursor).next s.config =
      ⟨some (.read s.config.mode c rest), before, before.consume (.read s.config.mode c rest)⟩)
    (hnone : ∀ fault : Fault, fault.isOfCharacter = false → before.about fault = [])
    (hform : (Lexeme.read s.config.mode c rest).kind = .rawString ∨
      (Lexeme.read s.config.mode c rest).isComment = true)
    (hextends : e.Extends (plainText (c :: rest)) (Lexeme.read s.config.mode c rest).chars.length
      (Lexeme.read s.config.mode c rest).openFault?) :
    s.scan.1.IsEnclosed e (plainText (c :: rest)) (Lexeme.read s.config.mode c rest).chars.length
      (Lexeme.read s.config.mode c rest).openFault? := by
  obtain ⟨skipped, taken, hstep⟩ := s.exists_step
  have htext : s.scan.1.text =
      (plainText (c :: rest)).take (Lexeme.read s.config.mode c rest).chars.length := by
    rw [scan, hnext]
    exact (Lexeme.plainText_take_read s.config.mode c rest).symm.trans List.map_take
  refine ⟨hextends, htext, hstep.stop_eq_locate, fun fault hfault => ?_⟩
  have habout : s.scan.1.about fault =
      (before.consume (.read s.config.mode c rest)).about fault := by
    rw [scan, hnext]
    rfl
  have hstop : s.scan.1.stop = (before.consume (.read s.config.mode c rest)).position := by
    rw [scan, hnext]
  rw [habout, Reading.about_consume_of_enclosed hfault before hform, hnone fault hfault,
    List.nil_append, ← hstop, hstep.stop_eq_locate, htext]
  split
  · next hopen =>
    rw [hopen] at hextends
    rw [hextends.eq_length, List.take_length]
  · rfl

section Passes

variable {passed : Nat} {f : Option Fault}

theorem start_of_skipped (h : before.Skipped s.config (.ofCursor s.cursor) passed f)
    (hbefore : ((Reading.ofCursor s.cursor).next s.config).before = before) :
    s.scan.1.start = s.position.locate ((plainText s.cursor.rest).take passed) := by
  rw [scan, hbefore, Reading.position, h.cursor_eq]
  exact (Cursor.advance_position _ _).trans (congrArg _ List.map_take)

theorem plainText_rest_of_skipped (h : before.Skipped s.config (.ofCursor s.cursor) passed f) :
    (plainText s.cursor.rest).drop passed = plainText before.rest := by
  rw [Reading.rest, h.cursor_eq, Cursor.advance_rest]
  exact List.map_drop.symm

/-- A scan that comes to the end of the input reports the comment that ran into it. -/
theorem passes_of_end (h : before.Skipped s.config (.ofCursor s.cursor) passed f)
    (hend : before.rest = [])
    (hnext : (Reading.ofCursor s.cursor).next s.config = ⟨none, before, before⟩) :
    s.scan.1.Passes s.config s.position (plainText s.cursor.rest) passed f := by
  have hkind : s.scan.1.kind = .endOfInput := by
    rw [scan, hnext]
    rfl
  have hother {k : Kind} (hk : k ≠ .endOfInput) (h : s.scan.1.kind = k) : False :=
    hk (h.symm.trans hkind)
  have hstart := start_of_skipped h (by rw [hnext])
  have hplace : s.scan.1.start = s.position.locate (plainText s.cursor.rest) := by
    -- nothing is left, so that all of the text was passed over
    have hleft := plainText_rest_of_skipped h
    rw [hend, plainText_nil] at hleft
    rw [hstart, List.take_of_length_le (List.drop_eq_nil_iff.1 hleft)]
  refine ⟨h.isSkipped, fun _ _ hskips => hskips.unique h.isSkipped, hstart,
    fun hk => (hother (by decide) hk).elim, fun hk => (hother (by decide) hk).elim,
    fun _ => ⟨hplace, fun fault hfault => ?_⟩, fun hk => absurd hkind hk,
    fun hk => absurd hkind hk⟩
  have habout : s.scan.1.about fault = before.about fault := by
    rw [scan, hnext]
    rfl
  have hposition : before.position = s.scan.1.start := by
    rw [scan, hnext]
  rw [habout, h.about_eq fault hfault, hposition, hplace]
  rfl

/-- A scan that comes to a lexeme has passed over comments that all have their marks. -/
theorem passes_of_lexeme (h : before.Skipped s.config (.ofCursor s.cursor) passed f)
    (hrest : before.rest = c :: rest)
    (hnext : (Reading.ofCursor s.cursor).next s.config =
      ⟨some (.read s.config.mode c rest), before, before.consume (.read s.config.mode c rest)⟩) :
    s.scan.1.Passes s.config s.position (plainText s.cursor.rest) passed f := by
  have hkind : s.scan.1.kind = (Lexeme.read s.config.mode c rest).kind := by
    rw [scan, hnext]
    rfl
  have hlexeme : s.scan.1.kind ≠ .endOfInput := by
    rw [hkind]
    exact Lexeme.kind_ne_endOfInput _
  -- what lacks its mark goes on to the end, so no lexeme could follow
  have hf : f = none := by
    by_contra hsome
    rw [h.rest_eq_nil hsome] at hrest
    cases hrest
  subst hf
  have hnone (fault : Fault) (hfault : fault.isOfCharacter = false) : before.about fault = [] := by
    rw [h.about_eq fault hfault, if_neg (Option.some_ne_none _).symm]
    rfl
  have htext : (plainText s.cursor.rest).drop passed = plainText (c :: rest) := by
    rw [plainText_rest_of_skipped h, hrest]
  refine ⟨h.isSkipped, fun _ _ hskips => hskips.unique h.isSkipped,
    start_of_skipped h (by rw [hnext]), fun hk => ?_, fun hk => ?_, fun hk => absurd hk hlexeme,
    fun _ => ⟨rfl, fun report hreport hfault => ?_⟩, fun _ hk => ?_⟩
  · rw [hkind] at hk
    rw [htext]
    exact ⟨_, _, isEnclosed hnext hnone (.inl hk) (Lexeme.extends_of_kind_eq_rawString hk)⟩
  · rw [hkind, ← Lexeme.isComment_iff] at hk
    obtain ⟨e, he, hextends⟩ := Lexeme.extends_of_isComment hk
    rw [htext]
    exact ⟨e, he, _, _, isEnclosed hnext hnone (.inr hk) hextends⟩
  -- in front of a lexeme, faulty characters are all that is reported
  · obtain ⟨_, _, _, hfinds, -⟩ := exists_finds hlexeme
    obtain ⟨gap, hreports, hgap⟩ := hfinds.reports_eq_append
    rw [hreports, List.mem_append] at hreport
    rcases hreport with hmem | hmem
    · rw [(hgap report hmem).2] at hfault
      cases hfault
    · simpa using (List.mem_filter.1 hmem).2
  · rw [hkind] at hk
    have habout : s.scan.1.about .commentNotTerminated =
        (before.consume (.read s.config.mode c rest)).about .commentNotTerminated := by
      rw [scan, hnext]
      rfl
    rw [habout, Reading.about_consume_of_ne_comment hrest hk, hnone _ rfl]

end Passes

/-- Every scan passes over what the text that is left tells, and what it then tells of ends where
that text tells. -/
theorem exists_passes (s : Scanner) :
    ∃ passed f, s.scan.1.Passes s.config s.position (plainText s.cursor.rest) passed f := by
  obtain ⟨passed, f, hskipped⟩ := Reading.skipped_next s.config (.ofCursor s.cursor)
  rcases Reading.next_cases s.config (.ofCursor s.cursor) with
    ⟨hend, hnext⟩ | ⟨c, rest, hrest, hnext⟩
  · exact ⟨passed, f, passes_of_end hskipped hend hnext⟩
  · exact ⟨passed, f, passes_of_lexeme hskipped hrest hnext⟩

end Scanner

namespace Source

/-- What any scan of a source passes over, and where a raw string or a comment that it tells of
ends, is settled by the characters that are left, and by nothing in between an opening and the first
mark behind it. What lacks its mark goes on to the end of the input, where that is reported once of
a raw string and of a block comment, kept or left out, and never of a line comment. -/
theorem enclosed_extent (source : Source) (config : Config) (n : Nat) :
    let place := (source.scannerAfter config n).position
    ∃ text passed fault?, source.slice? place.offset source.size = some text ∧
      (source.nthScan config n).Passes config place text passed fault? := by
  obtain ⟨come, hconfig, hcursor⟩ := source.exists_scannerAfter config n
  obtain ⟨passed, f, hpasses⟩ := (source.scannerAfter config n).exists_passes
  have hslice := source.slice?_advance_size come
  rw [← Cursor.advance_rest, ← hcursor] at hslice
  rw [hconfig] at hpasses
  exact ⟨_, passed, f, hslice, hpasses⟩

/-- The asterisk that opens a comment is no part of the mark that ends it. -/
example :
    let scan := (ofString "/**//*/").nthScan ⟨.ofFeatures [.comments], blanks⟩
    (scan 0).text = ['/', '*', '*', '/'] ∧ (scan 0).reports = [] ∧
      (scan 1).text = ['/', '*', '/'] ∧ (scan 1).reports = [⟨⟨7, 1, 8⟩, .commentNotTerminated⟩] := by
  decide +kernel

end Source

end Lexis
