import Lexis.Lexeme.Found
import Lexis.Proofs.Lexeme.Passage

/-!
# What stands between two lexemes

`Gap config gap rest` says what may be passed over before a lexeme: whitespace, and where comments
are recognised and left out, comments. A comment runs up to the end of its line, or to the mark that
ends it, or to the end of the input, so what follows the gap has a say in it. Looking for the next
lexeme is a passage over a gap and then a passage over the lexeme (`Reading.isNext_next`).
-/

namespace Lexis

/-- Whether comments are recognised and left out. -/
def Mode.leavesOutComments (mode : Mode) : Bool :=
  mode.has .comments && mode.has .skipComments

/-- `gap` is made of what is left out between lexemes, where `rest` follows it. -/
inductive Gap (config : Config) : List Char → List Char → Prop
  | nil (rest : List Char) : Gap config [] rest
  | whitespace {c : Char} {gap rest : List Char} (hc : config.isWhitespace c = true)
      (hgap : Gap config gap rest) : Gap config (c :: gap) rest
  /-- A comment up to the next line end, which is no part of it, or up to the end of the input. -/
  | lineComment {body gap rest : List Char} (hmode : config.mode.leavesOutComments = true)
      (hbody : '\n' ∉ body) (hend : ∀ c ∈ (gap ++ rest).head?, c = '\n')
      (hgap : Gap config gap rest) : Gap config ('/' :: '/' :: body ++ gap) rest
  /-- A comment up to the first mark that ends it. The asterisk that opens it is no part of that
  mark. -/
  | blockComment {body gap rest : List Char} (hmode : config.mode.leavesOutComments = true)
      (hbody : ¬ ['*', '/'] <:+: body ++ ['*'])
      (hgap : Gap config gap rest) : Gap config ('/' :: '*' :: body ++ '*' :: '/' :: gap) rest
  /-- A comment that no mark ends. -/
  | openComment {body : List Char} (hmode : config.mode.leavesOutComments = true)
      (hbody : ¬ ['*', '/'] <:+: body) : Gap config ('/' :: '*' :: body) []

namespace Gap

variable {config : Config} {gap rest : List Char}

theorem whitespace_append {blanks : List Char}
    (hblanks : ∀ c ∈ blanks, config.isWhitespace c = true) (hgap : Gap config gap rest) :
    Gap config (blanks ++ gap) rest := by
  induction blanks with
  | nil => exact hgap
  | cons c blanks ih =>
    have htail := ih fun d hd => hblanks d (List.mem_cons_of_mem _ hd)
    exact htail.whitespace (hblanks c List.mem_cons_self)

end Gap

/-! ## Comments -/

namespace Enclosed

/-- A character at which no mark stands is in the text before the mark. -/
theorem read_cons {mark : List Char} {c : SourceChar} {rest : List SourceChar}
    (h : startsWith mark (c :: rest) = false) :
    read mark (c :: rest) = ⟨c :: (read mark rest).body, (read mark rest).closed⟩ := by
  have hindex : indexOf? mark (c :: rest) = (indexOf? mark rest).map (· + 1) := by
    rw [indexOf?, if_neg (by simp [h])]
  unfold read
  rw [hindex]
  cases indexOf? mark rest with
  | none => rfl
  | some n => rfl

/-- Text in front of a mark is read up to it, if the mark is found neither in the text nor across
its end. -/
theorem read_of_not_infix {mark : List Char} (hmark : mark ≠ []) {body : List SourceChar}
    (h : ¬ mark <:+: plainText body ++ mark.dropLast) (more : List SourceChar) :
    read mark (body ++ (mark.map .valid ++ more)) = ⟨body, true⟩ := by
  induction body with
  | nil =>
    obtain ⟨m, marks, rfl⟩ := List.exists_cons_of_ne_nil hmark
    have hstarts : startsWith (m :: marks) ((m :: marks).map .valid ++ more) = true := by
      rw [startsWith_iff, plainText_append, plainText_map_valid]
      exact List.prefix_append _ _
    rw [List.nil_append]
    rw [List.map_cons, List.cons_append] at hstarts ⊢
    rw [read, indexOf?, if_pos hstarts]
    rfl
  | cons c body ih =>
    rw [plainText_cons, List.cons_append, List.infix_cons_iff, not_or] at h
    have hstarts : startsWith mark (c :: (body ++ (mark.map .valid ++ more))) = false := by
      rw [Bool.eq_false_iff, ne_eq, startsWith_iff]
      intro hprefix
      apply h.1
      -- the mark has no more characters than the last one of it stands behind
      refine List.prefix_of_prefix_length_le hprefix ?_ ?_
      · rw [plainText_cons, plainText_append, plainText_append, plainText_map_valid,
          List.prefix_cons_inj, List.prefix_append_right_inj]
        exact (List.dropLast_prefix mark).trans (List.prefix_append _ _)
      · rw [List.length_cons, List.length_append, List.length_dropLast]
        omega
    rw [List.cons_append, read_cons hstarts, ih h.2]

/-- Text that was read up to a mark is read again in front of the mark. -/
theorem read_again {mark : List Char} (hmark : mark ≠ []) {source : List SourceChar}
    (hclosed : (read mark source).closed = true) (more : List SourceChar) :
    read mark ((read mark source).charsThrough mark ++ more) = read mark source := by
  have hagain := read_of_not_infix hmark (not_infix_of_closed hmark hclosed) more
  rw [charsThrough, hclosed, if_pos rfl, List.append_assoc, hagain, ← hclosed]

/-- What follows a text that a mark ends starts with the mark. -/
theorem startsWith_drop_body {mark : List Char} (hmark : mark ≠ []) {source : List SourceChar}
    (h : (read mark source).closed = true) :
    mark <+: plainText (source.drop (read mark source).body.length) := by
  unfold read at h ⊢
  split
  · next n hfound =>
    have hstart := startsWith_iff.1 (indexOf?_eq_some hmark hfound).1
    have hlength : (source.take n).length = min n source.length := List.length_take
    by_cases hn : n ≤ source.length
    · rw [hlength, Nat.min_eq_left hn]
      exact hstart
    · rw [List.drop_of_length_le (by omega)] at hstart
      exact absurd (List.prefix_nil.1 hstart) hmark
  · next hfound =>
    rw [hfound] at h
    cases h

end Enclosed

namespace Lexeme

/-- The two forms of comments, and what they are read from. -/
theorem read_of_isComment {mode : Mode} {c : SourceChar} {rest : List SourceChar}
    (h : (read mode c rest).isComment = true) :
    mode.has .comments = true ∧ c = .valid '/' ∧
      ((∃ more, rest = .valid '/' :: more ∧
          read mode c rest = .lineComment (.read lineEnd rest)) ∨
        ∃ more, rest = .valid '*' :: more ∧
          read mode c rest = .blockComment (.read blockEnd more)) := by
  generalize hl : read mode c rest = l at h ⊢
  unfold read at hl
  repeat' split at hl
  all_goals subst hl
  -- of all the forms that a lexeme is read in, two are comments
  all_goals cases h
  · next hslash _ more _ =>
    refine ⟨(Bool.and_eq_true_iff.1 hslash).2, eq_valid_of_test hslash (by decide), ?_⟩
    exact .inl ⟨more, rfl, rfl⟩
  · next hslash _ more _ =>
    refine ⟨(Bool.and_eq_true_iff.1 hslash).2, eq_valid_of_test hslash (by decide), ?_⟩
    exact .inr ⟨more, rfl, rfl⟩

end Lexeme

namespace Gap

variable {config : Config} {gap after : List Char}

/-- A comment up to the end of its line, in front of a gap. -/
theorem cons_lineComment (hmode : config.mode.leavesOutComments = true) {more : List SourceChar}
    (hafter : plainText (more.drop (Enclosed.read Lexeme.lineEnd more).body.length) = gap ++ after)
    (hgap : Gap config gap after) :
    Gap config ('/' :: '/' :: plainText (Enclosed.read Lexeme.lineEnd more).body ++ gap) after := by
  cases hclosed : (Enclosed.read Lexeme.lineEnd more).closed with
  | true =>
    have hbody := Enclosed.not_infix_of_closed Lexeme.lineEnd_ne_nil hclosed
    have hend := Enclosed.startsWith_drop_body Lexeme.lineEnd_ne_nil hclosed
    refine hgap.lineComment hmode ?_ ?_
    · intro hmem
      apply hbody
      show ['\n'] <:+: _ ++ []
      rw [List.append_nil, List.singleton_infix_iff]
      exact hmem
    · intro c hc
      obtain ⟨rest, hrest⟩ := hend
      rw [← hafter, ← hrest] at hc
      exact (Option.some.inj hc).symm
  | false =>
    -- without a line end the comment is all there is, and nothing follows the gap
    obtain ⟨hall, hbody⟩ := Enclosed.not_infix_of_not_closed Lexeme.lineEnd_ne_nil hclosed
    rw [hall, List.drop_length] at hafter
    refine hgap.lineComment hmode ?_ ?_
    · intro hmem
      rw [hall] at hmem
      exact hbody ((List.singleton_infix_iff _ _).2 hmem)
    · intro c hc
      rw [← hafter] at hc
      cases hc

/-- A comment up to the mark that ends it, in front of a gap. -/
theorem cons_blockComment (hmode : config.mode.leavesOutComments = true) {more : List SourceChar}
    (hafter : plainText (more.drop
      ((Enclosed.read Lexeme.blockEnd more).charsThrough Lexeme.blockEnd).length) = gap ++ after)
    (hgap : Gap config gap after) :
    Gap config ('/' :: '*' ::
      plainText ((Enclosed.read Lexeme.blockEnd more).charsThrough Lexeme.blockEnd) ++ gap)
      after := by
  cases hclosed : (Enclosed.read Lexeme.blockEnd more).closed with
  | true =>
    have hbody := Enclosed.not_infix_of_closed Lexeme.blockEnd_ne_nil hclosed
    have hchars : plainText ((Enclosed.read Lexeme.blockEnd more).charsThrough Lexeme.blockEnd) =
        plainText (Enclosed.read Lexeme.blockEnd more).body ++ ['*', '/'] := by
      rw [Enclosed.charsThrough, hclosed, plainText_append]
      rfl
    have h := hgap.blockComment hmode hbody
    rw [hchars]
    simpa using h
  | false =>
    obtain ⟨hall, hbody⟩ := Enclosed.not_infix_of_not_closed Lexeme.blockEnd_ne_nil hclosed
    have hchars : (Enclosed.read Lexeme.blockEnd more).charsThrough Lexeme.blockEnd = more := by
      rw [Enclosed.charsThrough, hclosed, hall]
      simp
    rw [hchars, List.drop_length] at hafter
    -- nothing is left behind a comment that is not closed, neither gap nor lexeme
    obtain ⟨rfl, rfl⟩ := List.append_eq_nil_iff.1 hafter.symm
    rw [hchars, List.append_nil]
    exact .openComment hmode hbody

/-- A comment in front of a gap makes a longer gap. -/
theorem cons_comment {c : SourceChar} {rest : List SourceChar}
    (hcomment : (Lexeme.read config.mode c rest).isComment = true)
    (hskip : config.mode.has .skipComments = true)
    (hafter : plainText ((c :: rest).drop (Lexeme.read config.mode c rest).chars.length) =
      gap ++ after)
    (hgap : Gap config gap after) :
    Gap config ((Lexeme.read config.mode c rest).text ++ gap) after := by
  obtain ⟨hhas, rfl, hform⟩ := Lexeme.read_of_isComment hcomment
  have hmode : config.mode.leavesOutComments = true := by
    rw [Mode.leavesOutComments, hhas, hskip]
    rfl
  rcases hform with ⟨more, rfl, hread⟩ | ⟨more, rfl, hread⟩
  · -- the second slash is the first character of the text that runs up to the line end
    have hslash : Enclosed.startsWith Lexeme.lineEnd (.valid '/' :: more) = false := rfl
    rw [hread, Enclosed.read_cons hslash] at hafter ⊢
    exact cons_lineComment hmode hafter hgap
  · rw [hread] at hafter ⊢
    exact cons_blockComment hmode hafter hgap

end Gap

/-! ## The next lexeme -/

/-- What is found behind a reading: a gap of `skipped` characters, and then a lexeme of `taken`
characters, or the end of the input. -/
structure Found.IsNext (found : Found) (config : Config) (r : Reading) (skipped taken : Nat) :
    Prop where
  before : Reading.Passage r skipped found.before
  after : Reading.Passage found.before taken found.after
  gap : Gap config (plainText (r.rest.take skipped)) (plainText found.before.rest)
  text : found.text = plainText (found.before.rest.take taken)
  taken_le : taken ≤ found.before.rest.length
  lexeme : found.kind ≠ .endOfInput → 0 < taken
  endOfInput : found.kind = .endOfInput → found.before.rest = []

namespace Lexeme

theorem kind_ne_endOfInput (l : Lexeme) : l.kind ≠ .endOfInput := by
  cases l with
  | number n =>
    show n.kind ≠ _
    unfold Number.kind
    split
    · exact Kind.noConfusion
    · exact Kind.noConfusion
  | _ => exact Kind.noConfusion

theorem isComment_iff (l : Lexeme) : l.isComment = true ↔ l.kind = .comment := by
  cases l with
  | number n =>
    have hkind : n.kind ≠ .comment := by
      unfold Number.kind
      split <;> exact Kind.noConfusion
    exact ⟨fun h => Bool.noConfusion h, fun h => absurd h hkind⟩
  | lineComment e => exact ⟨fun _ => rfl, fun _ => rfl⟩
  | blockComment e => exact ⟨fun _ => rfl, fun _ => rfl⟩
  | _ => exact ⟨fun h => Bool.noConfusion h, fun h => Kind.noConfusion h⟩

end Lexeme

namespace Reading

theorem passage_skipWhitespace (config : Config) (r : Reading) :
    Passage r (r.rest.takeWhile fun c => config.isWhitespace c.char).length
      (r.skipWhitespace config) :=
  Passage.bumps r _

theorem gap_skipWhitespace (config : Config) (r : Reading) {gap rest : List Char}
    (hgap : Gap config gap rest) :
    Gap config (plainText (r.rest.take
      (r.rest.takeWhile fun c => config.isWhitespace c.char).length) ++ gap) rest := by
  have htake := List.prefix_iff_eq_take.1
    (List.takeWhile_prefix (l := r.rest) fun c => config.isWhitespace c.char)
  rw [← htake]
  refine hgap.whitespace_append ?_
  intro c hc
  obtain ⟨d, hd, rfl⟩ := List.mem_map.1 hc
  simpa using List.mem_takeWhile_imp hd

/-- Behind whitespace, a lexeme that is left out is passed over, and any other one is found. -/
theorem next_of_skipWhitespace_rest_eq_cons (config : Config) {r : Reading} {c : SourceChar}
    {more : List SourceChar} (hrest : (r.skipWhitespace config).rest = c :: more) :
    r.next config =
      let before := r.skipWhitespace config
      let l := Lexeme.read config.mode c more
      if l.isComment && config.mode.has .skipComments then (before.consume l).next config
      else ⟨some l, before, before.consume l⟩ := by
  rw [next]
  dsimp only
  split
  · next hnil =>
    rw [hnil] at hrest
    cases hrest
  · next hcons =>
    rw [hcons] at hrest
    cases hrest
    rfl

/-- Where only whitespace is left, nothing is found. -/
theorem next_of_skipWhitespace_rest_eq_nil (config : Config) {r : Reading}
    (hrest : (r.skipWhitespace config).rest = []) :
    r.next config = ⟨none, r.skipWhitespace config, r.skipWhitespace config⟩ := by
  rw [next]
  dsimp only
  split
  · rfl
  · next hcons =>
    rw [hcons] at hrest
    cases hrest

/-- At the end there is nothing to find. -/
theorem next_of_rest_eq_nil (config : Config) {r : Reading} (h : r.rest = []) :
    r.next config = ⟨none, r, r⟩ := by
  have hskip : r.skipWhitespace config = r := by
    rw [skipWhitespace, h]
    rfl
  rw [next_of_skipWhitespace_rest_eq_nil config (by rw [hskip, h]), hskip]

/-- Looking for the next lexeme leads over a gap and over the lexeme. -/
theorem isNext_next (config : Config) (r : Reading) :
    ∃ skipped taken, (r.next config).IsNext config r skipped taken := by
  fun_induction next config r with
  | case1 r before hend =>
    refine ⟨_, 0, passage_skipWhitespace config r, Passage.refl _, ?_, ?_, ?_, ?_, ?_⟩
    · have h := gap_skipWhitespace config r (Gap.nil (plainText before.rest))
      rwa [List.append_nil] at h
    · rfl
    · exact Nat.zero_le _
    · exact fun h => absurd rfl h
    · exact fun _ => hend
  | case2 r before c rest hrest lexeme after hlt hskip ih =>
    rw [Bool.and_eq_true] at hskip
    obtain ⟨skipped, taken, hnext⟩ := ih
    have hbefore := passage_skipWhitespace config r
    have hafter := passage_consume_read config.mode hrest
    refine ⟨_, taken, (hbefore.trans hafter).trans hnext.before, hnext.after, ?_, hnext.text,
      hnext.taken_le, hnext.lexeme, hnext.endOfInput⟩
    have hrests : after.rest = (c :: rest).drop lexeme.chars.length := by
      rw [hafter.rest_eq, hrest]
    have htext : plainText (before.rest.take lexeme.chars.length) = lexeme.text := by
      rw [hrest, Lexeme.plainText_take_read]
    -- the comment goes before the gap found behind it, and the whitespace before the comment
    have hcomment := Gap.cons_comment hskip.1 hskip.2 (by
      rw [hnext.before.rest_eq, ← plainText_append, List.take_append_drop, hrests]) hnext.gap
    have hgap := gap_skipWhitespace config r hcomment
    rw [List.take_add, List.take_add, plainText_append, plainText_append, List.append_assoc,
      ← List.drop_drop, ← hbefore.rest_eq, ← hafter.rest_eq, htext]
    exact hgap
  | case3 r before c rest hrest lexeme after hlt hskip =>
    refine ⟨_, lexeme.chars.length, passage_skipWhitespace config r,
      passage_consume_read config.mode hrest, ?_, ?_, ?_, ?_, ?_⟩
    · have h := gap_skipWhitespace config r (Gap.nil (plainText before.rest))
      rwa [List.append_nil] at h
    · rw [hrest]
      exact (Lexeme.plainText_take_read config.mode c rest).symm
    · rw [hrest]
      exact (Lexeme.chars_read_isPrefix config.mode c rest).length_le
    · intro _
      exact List.length_pos_iff.2 (Lexeme.chars_read_ne_nil config.mode c rest)
    · intro hkind
      exact absurd hkind lexeme.kind_ne_endOfInput

end Reading

end Lexis
