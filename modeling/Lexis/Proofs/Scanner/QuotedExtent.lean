import Mathlib.InformationTheory.Coding.UniquelyDecodable
import Lexis.Proofs.Lexeme.Breaks
import Lexis.Proofs.Lexeme.Form
import Lexis.Proofs.Scanner.Lexeme

/-!
# Where quoted literals end

Where a quoted literal ends and what is reported of it is told from the text behind its opening
quote by counting backslashes, whether its escapes are whole or not (`Scan.IsQuoted`). An escape
that breaks off is reported where none could go on, and what stands there is read once more, as the
closing quote, a line end, an escape of its own or a character like others; the closing quote stays
the one that is found by counting. That scanners do so is `Source.quoted_extent`.
-/

namespace Lexis

/-- The quotes that literals of a kind stand between. -/
inductive Kind.HasQuote : Kind → Char → Prop
  | string : HasQuote .string '\x22'
  | char : HasQuote .char '\x27'

theorem Kind.HasQuote.isQuote {kind : Kind} {quote : Char} (h : kind.HasQuote quote) :
    IsQuote quote := by
  cases h with
  | string => exact isQuote_double
  | char => exact isQuote_single

namespace Quoted

/-! ## Literals and the text from their opening quote on -/

/-- A character stands at an index of a text, behind an even number of backslashes. -/
def IsUnescaped (c : Char) (text : List Char) (i : Nat) : Prop :=
  text[i]? = some c ∧ slashesBefore text i % 2 = 0

instance (c : Char) (text : List Char) (i : Nat) : Decidable (IsUnescaped c text i) :=
  inferInstanceAs (Decidable (_ ∧ _))

/-- A literal could end at an index of the text that begins with its opening quote: nothing stands
there, or a line end, or a quote that is not escaped. -/
def CanEndAt (quote : Char) (text : List Char) (i : Nat) : Prop :=
  0 < i ∧ (i = text.length ∨ text[i]? = some '\n' ∨ IsUnescaped quote text i)

/-- No whole escape follows the backslash at index `i`, and up to index `j` the text is still one
that an escape could go on from. -/
structure BreaksOff (quote : Char) (text : List Char) (i j : Nat) : Prop where
  no_escape : ∀ escape, EscapeText quote escape → ¬ escape <+: text.drop (i + 1)
  isGreatest : IsGreatest {j | i < j ∧ j ≤ text.length ∧ ∃ escape, EscapeText quote escape ∧
    (text.take j).drop (i + 1) <+: escape} j

/-- One of the things that a literal is made of: a character, or a backslash with an escape. -/
inductive Piece (quote : Char) : List Char → Prop
  | plain {c : Char} (hquote : c ≠ quote) (hend : c ≠ '\n') (hslash : c ≠ '\x5c') :
      Piece quote [c]
  | escape {text : List Char} (h : EscapeText quote text) : Piece quote ('\x5c' :: text)

variable {quote : Char}

/-! ## Indices -/

/-- The opening quote is no backslash, so it does not matter to what is counted behind it. -/
theorem isUnescaped_succ (hquote : quote ≠ '\x5c') {c : Char} {more : List Char} {i : Nat} :
    IsUnescaped c (quote :: more) (i + 1) ↔
      more[i]? = some c ∧ oddBehind false (more.take i) = false := by
  have hfirst : oddNext false quote = false := by
    rw [oddNext, beq_eq_false_iff_ne.2 hquote]
    rfl
  have hcount : oddBehind (oddNext false quote) (more.take i) =
      decide (slashesBefore (quote :: more) (i + 1) % 2 = 1) :=
    oddBehind_false (quote :: more.take i)
  rw [hfirst] at hcount
  rw [IsUnescaped, hcount, List.getElem?_cons_succ, decide_eq_false_iff_not, ← ne_eq,
    Nat.mod_two_ne_one]

theorem isUnescaped_extent (hquote : IsQuote quote) {more : List Char} :
    IsUnescaped quote (quote :: more) (extent quote false more + 1) ↔
      more[extent quote false more]? = some quote := by
  rw [isUnescaped_succ hquote.ne_backslash, and_iff_left_iff_imp]
  intro h
  have hstop := isStop_extent h
  simpa [isStop, hquote.ne_newline] using hstop

/-- Behind its opening quote, a literal stops at the first index at which it can. -/
theorem isLeast_extent (hquote : IsQuote quote) (more : List Char) :
    IsLeast {i | CanEndAt quote (quote :: more) i} (extent quote false more + 1) := by
  constructor
  · refine ⟨Nat.succ_pos _, ?_⟩
    cases hc : more[extent quote false more]? with
    | none =>
      have hle := List.getElem?_eq_none_iff.1 hc
      have hge := extent_le_length quote false more
      refine .inl ?_
      rw [List.length_cons]
      omega
    | some c =>
      have hstop := isStop_extent hc
      rw [isStop, Bool.or_eq_true, beq_iff_eq, Bool.and_eq_true, beq_iff_eq] at hstop
      rcases hstop with rfl | ⟨rfl, -⟩
      · exact .inr (.inl hc)
      · exact .inr (.inr ((isUnescaped_extent hquote).2 hc))
  · rintro i ⟨hpos, hend⟩
    obtain ⟨i, rfl⟩ := Nat.exists_eq_add_of_le' hpos
    by_contra hlt
    -- before its end a literal goes on over every character
    obtain ⟨c, hc, hgoes⟩ := not_isStop_of_lt_extent (Nat.lt_of_succ_lt_succ (Nat.lt_of_not_le hlt))
    rcases hend with hlength | hline | hclosing
    · rw [List.length_cons] at hlength
      rw [List.getElem?_eq_none (by omega)] at hc
      cases hc
    · rw [List.getElem?_cons_succ, hc] at hline
      cases hline
      simp [isStop] at hgoes
    · obtain ⟨hat, heven⟩ := (isUnescaped_succ hquote.ne_backslash).1 hclosing
      rw [hc] at hat
      cases hat
      simp [isStop, heven] at hgoes

/-! ## Escapes that break off -/

/-- An escape breaks off where reading it does. -/
theorem breaksOff_iff (hquote : IsQuote quote) {source : List SourceChar} {i j : Nat}
    (hi : i < source.length) :
    BreaksOff quote (quote :: plainText source) (i + 1) j ↔
      (Escape.read quote (source.drop (i + 1))).complete = false ∧
        j = (Escape.read quote (source.drop (i + 1))).body.length + (i + 2) := by
  have hbehind : (quote :: plainText source).drop (i + 1 + 1) =
      plainText (source.drop (i + 1)) := by
    rw [List.drop_succ_cons]
    exact List.map_drop.symm
  have hlength : (source.drop (i + 1)).length + (i + 2) = (quote :: plainText source).length := by
    rw [List.length_drop, List.length_cons, length_plainText]
    omega
  have hcomplete := Escape.complete_iff hquote (source.drop (i + 1))
  have hgreatest := Escape.isGreatest_length_body hquote (source.drop (i + 1))
  generalize Escape.read quote (source.drop (i + 1)) = e at hcomplete hgreatest ⊢
  -- indices of the text are counted from the opening quote, and lengths from behind the backslash
  have htaken (n : Nat) : ((quote :: plainText source).take (n + (i + 2))).drop (i + 1 + 1) =
      plainText ((source.drop (i + 1)).take n) := by
    rw [List.drop_take, hbehind, Nat.add_sub_cancel]
    exact List.map_take.symm
  have hfurthest : IsGreatest {j | i + 1 < j ∧ j ≤ (quote :: plainText source).length ∧
      ∃ escape, EscapeText quote escape ∧
        ((quote :: plainText source).take j).drop (i + 1 + 1) <+: escape}
      (e.body.length + (i + 2)) := by
    constructor
    · refine ⟨by omega, ?_, ?_⟩
      · rw [← hlength]
        exact Nat.add_le_add_right hgreatest.1.1 _
      · rw [htaken]
        exact hgreatest.1.2
    · rintro k ⟨hk, hle, hescape⟩
      obtain ⟨n, rfl⟩ := Nat.exists_eq_add_of_le' hk
      rw [← hlength] at hle
      rw [htaken] at hescape
      exact Nat.add_le_add_right (hgreatest.2 ⟨Nat.le_of_add_le_add_right hle, hescape⟩) _
  have hnone : e.complete = false ↔ ∀ escape, EscapeText quote escape →
      ¬ escape <+: (quote :: plainText source).drop (i + 1 + 1) := by
    rw [← Bool.not_eq_true, hcomplete, hbehind]
    simp
  constructor
  · intro h
    exact ⟨hnone.2 h.no_escape, h.isGreatest.unique hfurthest⟩
  · rintro ⟨hbroken, rfl⟩
    exact ⟨hnone.1 hbroken, hfurthest⟩

/-- What is found at an introducing backslash is where its escape breaks off. -/
theorem breakAt_eq_some_iff (hquote : IsQuote quote) {source : List SourceChar} {i j k : Nat}
    (hk : k < source.length) :
    breakAt quote source k = some (i, j) ↔
      i = k ∧ BreaksOff quote (quote :: plainText source) (i + 1) (j + 1) := by
  constructor
  · intro h
    obtain ⟨pair, hpair, heq⟩ := Option.map_eq_some_iff.1 h
    rw [break?] at hpair
    split at hpair
    · cases hpair
    · next hbroken =>
      cases hpair
      cases heq
      refine ⟨Nat.zero_add k, ?_⟩
      rw [Nat.zero_add]
      refine (breaksOff_iff hquote hk).2 ⟨Bool.eq_false_iff.2 hbroken, ?_⟩
      omega
  · rintro ⟨rfl, h⟩
    obtain ⟨hbroken, hj⟩ := (breaksOff_iff hquote hk).1 h
    have hindex : (Escape.read quote (source.drop (i + 1))).body.length + 1 + i = j := by
      omega
    rw [breakAt, break?, hbroken, if_neg Bool.false_ne_true, Option.map_some, shift, Nat.zero_add,
      hindex]

/-- Where a literal that is read stops, and which of its escapes break off, both told from its
opening quote on. -/
theorem read_agrees (hquote : IsQuote quote) (rest : List SourceChar) :
    (read quote rest).body.length = extent quote false (plainText rest) ∧
      ((read quote rest).closed = true ↔ IsUnescaped quote (quote :: plainText rest)
        (extent quote false (plainText rest) + 1)) ∧
      breaks (read quote rest).items = (introducers quote false (plainText rest)).filterMap
        (breakAt quote rest) := by
  have hagrees : Agrees quote false rest (readItems quote rest) :=
    readItems_agrees hquote fun h => absurd h Bool.false_ne_true
  rw [isUnescaped_extent hquote]
  exact ⟨hagrees.extent_eq.symm, hagrees.closed_iff, hagrees.breaks_eq⟩

/-- The escapes of a literal that break off are those of its introducing backslashes that do. -/
theorem mem_breaks_iff (hquote : IsQuote quote) (rest : List SourceChar) (i j : Nat) :
    (i, j) ∈ (breaks (read quote rest).items).map (shift 1) ↔
      i < extent quote false (plainText rest) + 1 ∧
        IsUnescaped '\x5c' (quote :: plainText rest) i ∧
          BreaksOff quote (quote :: plainText rest) i j := by
  have hle := extent_le_length quote false (plainText rest)
  rw [length_plainText] at hle
  rw [(read_agrees hquote rest).2.2, List.mem_map]
  constructor
  · rintro ⟨⟨i, j⟩, hmem, heq⟩
    cases heq
    obtain ⟨k, hk, hbreak⟩ := List.mem_filterMap.1 hmem
    obtain ⟨hbefore, hslash⟩ := mem_introducers.1 hk
    obtain ⟨rfl, hbreaks⟩ :=
      (breakAt_eq_some_iff hquote (Nat.lt_of_lt_of_le hbefore hle)).1 hbreak
    exact ⟨Nat.succ_lt_succ hbefore, (isUnescaped_succ hquote.ne_backslash).2 hslash, hbreaks⟩
  · rintro ⟨hbefore, hslash, hbreaks⟩
    cases i with
    | zero => exact absurd (Option.some.inj hslash.1) hquote.ne_backslash
    | succ i =>
      have hi := Nat.lt_of_succ_lt_succ hbefore
      obtain ⟨j, rfl⟩ := Nat.exists_eq_add_of_le' (Nat.lt_of_le_of_lt (Nat.zero_le _)
        hbreaks.isGreatest.1.1)
      refine ⟨(i, j), List.mem_filterMap.2 ⟨i, ?_, ?_⟩, rfl⟩
      · exact mem_introducers.2 ⟨hi, (isUnescaped_succ hquote.ne_backslash).1 hslash⟩
      · exact (breakAt_eq_some_iff hquote (Nat.lt_of_lt_of_le hi hle)).2 ⟨rfl, hbreaks⟩

/-- They are listed in the order of their backslashes. -/
theorem pairwise_breaks (hquote : IsQuote quote) (rest : List SourceChar) :
    ((breaks (read quote rest).items).map (shift 1)).Pairwise fun a b => a.1 < b.1 := by
  have hindex {k : Nat} {pair : Nat × Nat} (h : breakAt quote rest k = some pair) :
      pair.1 = k := by
    obtain ⟨own, hown, rfl⟩ := Option.map_eq_some_iff.1 h
    rw [break?] at hown
    split at hown
    · cases hown
    · cases hown
      exact Nat.zero_add k
  rw [(read_agrees hquote rest).2.2, List.pairwise_map, List.pairwise_filterMap]
  refine (pairwise_introducers _ _ _).imp fun hlt a ha b hb => ?_
  rw [shift, shift, hindex ha, hindex hb]
  exact Nat.succ_lt_succ hlt

/-! ## Pieces -/

/-- A text starts with one escape at most. -/
theorem escape_unique (hquote : IsQuote quote) {a b text : List Char} (ha : EscapeText quote a)
    (hb : EscapeText quote b) (hastarts : a <+: text) (hbstarts : b <+: text) : a = b := by
  rw [← plainText_map_valid text] at hastarts hbstarts
  have hreada := (Escape.read_of_starts hquote ha hastarts).2
  have hreadb := (Escape.read_of_starts hquote hb hbstarts).2
  exact hreada.symm.trans hreadb

theorem Piece.ne_nil {text : List Char} (h : Piece quote text) : text ≠ [] := by
  cases h with
  | plain => exact List.cons_ne_nil _ _
  | escape => exact List.cons_ne_nil _ _

/-- A text starts with one piece at most. -/
theorem piece_unique (hquote : IsQuote quote) {a b text : List Char} (ha : Piece quote a)
    (hb : Piece quote b) (hastarts : a <+: text) (hbstarts : b <+: text) : a = b := by
  cases text with
  | nil => exact absurd (List.prefix_nil.1 hastarts) ha.ne_nil
  | cons c text =>
    cases ha with
    | plain _ _ hslash =>
      obtain ⟨rfl, -⟩ := List.cons_prefix_cons.1 hastarts
      cases hb with
      | plain => exact congrArg (fun d => [d]) (List.cons_prefix_cons.1 hbstarts).1.symm
      | escape => exact absurd (List.cons_prefix_cons.1 hbstarts).1.symm hslash
    | escape ha =>
      obtain ⟨rfl, hatail⟩ := List.cons_prefix_cons.1 hastarts
      cases hb with
      | plain _ _ hslash => exact absurd (List.cons_prefix_cons.1 hbstarts).1 hslash
      | escape hb =>
        have hbtail := (List.cons_prefix_cons.1 hbstarts).2
        exact congrArg (List.cons _) (escape_unique hquote ha hb hatail hbtail)

/-- A text is made of pieces in one way only. -/
theorem uniquelyDecodable_piece (hquote : IsQuote quote) :
    InformationTheory.UniquelyDecodable {text | Piece quote text} := by
  intro pieces others hpieces hothers heq
  induction pieces generalizing others with
  | nil =>
    cases others with
    | nil => rfl
    | cons other others =>
      have hnil := (List.append_eq_nil_iff.1 heq.symm).1
      exact absurd hnil (hothers _ List.mem_cons_self).ne_nil
  | cons piece pieces ih =>
    cases others with
    | nil =>
      have hnil := (List.append_eq_nil_iff.1 heq).1
      exact absurd hnil (hpieces _ List.mem_cons_self).ne_nil
    | cons other others =>
      rw [List.flatten_cons, List.flatten_cons] at heq
      have hfirst : piece = other :=
        piece_unique hquote (hpieces _ List.mem_cons_self) (hothers _ List.mem_cons_self)
          ⟨pieces.flatten, rfl⟩ ⟨others.flatten, heq.symm⟩
      subst hfirst
      have hrest := ih others (fun w hw => hpieces w (List.mem_cons_of_mem _ hw))
        (fun w hw => hothers w (List.mem_cons_of_mem _ hw)) (List.append_cancel_left heq)
      rw [hrest]

/-- Where no escape breaks off, items are pieces. -/
theorem piece_of_mem_readItems {source : List SourceChar}
    (h : breaks (readItems quote source).1 = []) :
    ∀ item ∈ (readItems quote source).1, Piece quote (plainText item.chars) := by
  fun_induction readItems quote source with
  | case1 | case2 | case3 => exact List.forall_mem_nil _
  | case4 c rest _ _ hc e items closed hread ih =>
    obtain ⟨hhere, hrest⟩ := List.append_eq_nil_iff.1 h
    have hcomplete : e.complete = true := by
      by_contra hbroken
      simp [break?, hbroken] at hhere
    rw [hread] at ih
    rw [List.forall_mem_cons]
    exact ⟨.escape (Escape.escapeText_of_complete hcomplete), ih (List.map_eq_nil_iff.1 hrest)⟩
  | case5 c rest hquote hend hslash items closed hread ih =>
    obtain ⟨-, hrest⟩ := List.append_eq_nil_iff.1 h
    rw [hread] at ih
    rw [List.forall_mem_cons]
    exact ⟨.plain hquote hend hslash, ih (List.map_eq_nil_iff.1 hrest)⟩

theorem body_read_isPrefix (hquote : IsQuote quote) (rest : List SourceChar) :
    (read quote rest).body <+: rest :=
  (List.prefix_append _ _).trans (itemChars_readItems_isPrefix hquote.ne_replacement rest)

/-- Where no escape breaks off, the text up to the end of a literal is made of as many pieces as
there are items. -/
theorem exists_pieces (hquote : IsQuote quote) {rest : List SourceChar}
    (h : breaks (read quote rest).items = []) :
    ∃ pieces : List (List Char), (∀ piece ∈ pieces, Piece quote piece) ∧
      pieces.flatten = (plainText rest).take (extent quote false (plainText rest)) ∧
      pieces.length = (read quote rest).items.length := by
  refine ⟨(read quote rest).items.map fun item => plainText item.chars, ?_, ?_, ?_⟩
  · exact List.forall_mem_map.2 (piece_of_mem_readItems h)
  · have hbody : plainText (read quote rest).body =
        (plainText rest).take (read quote rest).body.length := by
      conv_lhs => rw [List.prefix_iff_eq_take.1 (body_read_isPrefix hquote rest)]
      exact List.map_take
    rw [← (read_agrees hquote rest).1, ← hbody]
    exact List.map_flatMap.symm
  · exact List.length_map _

theorem length_chars (q : Quoted) :
    q.chars.length = if q.closed then q.body.length + 2 else q.body.length + 1 := by
  rw [chars, List.length_append, List.length_cons]
  split
  · rfl
  · rfl

end Quoted

namespace Scan

/-- The reports about one thing, in order. -/
def about (scan : Scan) (fault : Fault) : List Report :=
  scan.reports.filter (·.fault == fault)

/-- The scan tells of a quoted literal that stops at index `stop` of `text`, which is the source
from the opening quote on. The closing quote, if there is one, stands at that index. -/
structure IsQuoted (scan : Scan) (quote : Char) (text : List Char) (stop : Nat) : Prop where
  isLeast_stop : IsLeast {i | Quoted.CanEndAt quote text i} stop
  text_eq : scan.text =
    text.take (if Quoted.IsUnescaped quote text stop then stop + 1 else stop)
  stop_eq : scan.stop = scan.start.locate scan.text
  notTerminated_eq : scan.about .literalNotTerminated =
    if Quoted.IsUnescaped quote text stop then []
    else [⟨scan.start.locate (text.take stop), .literalNotTerminated⟩]
  /-- Backslashes that introduce no whole escape, in order, each with the place where its escape
  breaks off. -/
  exists_breaks : ∃ breaks : List (Nat × Nat), breaks.Pairwise (fun a b => a.1 < b.1) ∧
    (∀ i j, (i, j) ∈ breaks ↔ i < stop ∧ Quoted.IsUnescaped '\x5c' text i ∧
      Quoted.BreaksOff quote text i j) ∧
    scan.about .invalidEscape =
      breaks.map fun pair => ⟨scan.start.locate (text.take pair.2), .invalidEscape⟩
  /-- Where no escape breaks off, a literal between apostrophes has to be made of one piece. -/
  illegalChar_eq : scan.kind = .char → scan.about .invalidEscape = [] →
    ∃ pieces : List (List Char), (∀ piece ∈ pieces, Quoted.Piece quote piece) ∧
      pieces.flatten = (text.take stop).drop 1 ∧
      (∀ others : List (List Char), (∀ piece ∈ others, Quoted.Piece quote piece) →
        others.flatten = (text.take stop).drop 1 → others = pieces) ∧
      scan.about .illegalCharLiteral =
        if pieces.length = 1 then [] else [⟨scan.start, .illegalCharLiteral⟩]

namespace IsAt

variable {scan : Scan} {mode : Mode} {cursor : Cursor} {c : SourceChar} {rest : List SourceChar}
  {quote : Char}

/-- Reading the lexeme makes all reports that are not about characters. -/
theorem about_eq (h : scan.IsAt mode cursor c rest) {fault : Fault}
    (hfault : fault.isOfCharacter = false) :
    scan.about fault =
      ((Reading.ofCursor cursor).consume (Lexeme.read mode c rest)).about fault := by
  obtain ⟨gap, hreports, hgap⟩ := h.reports_eq
  have hnone : gap.filter (·.fault == fault) = [] :=
    Reading.filter_eq_nil_of_isOfCharacter hfault fun report hreport => (hgap report hreport).2
  rw [about, hreports, List.filter_append, hnone, List.nil_append, h.ownReports_eq]
  rfl

/-- Places of the cursor are counted on from the start of the lexeme. -/
theorem position_advance (h : scan.IsAt mode cursor c rest) (n : Nat) :
    (cursor.advance n).position = scan.start.locate ((plainText (c :: rest)).take n) := by
  rw [Cursor.advance_position, h.rest_eq, h.start_eq]
  exact congrArg _ List.map_take

/-- A literal of a kind that stands between quotes is read as one. -/
theorem reads_quoted (h : scan.IsAt mode cursor c rest) (hkind : scan.kind.HasQuote quote) :
    c = .valid quote ∧ (Lexeme.read mode c rest).chars = (Quoted.read quote rest).chars ∧
      (∀ fault ≠ .illegalCharLiteral,
        ((Reading.ofCursor cursor).consume (Lexeme.read mode c rest)).about fault =
          ((Reading.ofCursor cursor).consumeQuoted (.read quote rest)).about fault) ∧
      (scan.kind = .char →
        ((Reading.ofCursor cursor).consume (Lexeme.read mode c rest)).about .illegalCharLiteral =
          if (Quoted.read quote rest).items.length = 1 then []
          else [⟨cursor.position, .illegalCharLiteral⟩]) := by
  have hkindof := h.kind_eq
  generalize scan.kind = kind at hkind hkindof
  cases hkind with
  | string =>
    obtain ⟨hc, hread⟩ := Lexeme.read_of_kind_eq .double hkindof.symm
    rw [hread]
    exact ⟨hc, rfl, fun _ _ => rfl, fun hchar => absurd hchar (by decide)⟩
  | char =>
    obtain ⟨hc, hread⟩ := Lexeme.read_of_kind_eq .single hkindof.symm
    have hnone := (Reading.about_consumeQuoted cursor (.read '\x27' rest)).2.2
    rw [hread, Quoting.read]
    refine ⟨hc, rfl, fun fault hfault => ?_, fun _ => ?_⟩
    · rw [Reading.consume]
      split
      · rfl
      · rw [Reading.about_reportAt, if_neg (Ne.symm hfault), List.append_nil]
    · rw [Reading.consume]
      split
      · exact hnone
      · rw [Reading.about_reportAt, hnone, if_pos rfl]
        rfl

/-- A literal of a kind that stands between quotes ends, and is reported, as the text from its
opening quote on tells. -/
theorem isQuoted (h : scan.IsAt mode cursor c rest) (hkind : scan.kind.HasQuote quote)
    (hstop : scan.stop = scan.start.locate scan.text) :
    c = .valid quote ∧ scan.IsQuoted quote (quote :: plainText rest)
      (Quoted.extent quote false (plainText rest) + 1) := by
  have hquote := hkind.isQuote
  obtain ⟨hc, hchars, hsame, hillegal⟩ := h.reads_quoted hkind
  obtain ⟨hlength, hclosed, -⟩ := Quoted.read_agrees hquote rest
  obtain ⟨hbreaks, hterminated, -⟩ := Reading.about_consumeQuoted cursor (.read quote rest)
  have htext : plainText (c :: rest) = quote :: plainText rest := by
    rw [hc, plainText_cons, SourceChar.char_valid]
  have hplace (n : Nat) : (cursor.advance n).position =
      scan.start.locate ((quote :: plainText rest).take n) := by
    rw [h.position_advance, htext]
  have hinvalid : scan.about .invalidEscape =
      ((Quoted.breaks (Quoted.read quote rest).items).map (Quoted.shift 1)).map fun pair =>
        ⟨scan.start.locate ((quote :: plainText rest).take pair.2), .invalidEscape⟩ := by
    rw [h.about_eq rfl, hsame _ (by decide), hbreaks]
    exact List.map_congr_left fun pair _ => by rw [hplace]
  refine ⟨hc, ?_⟩
  constructor
  · exact Quoted.isLeast_extent hquote _
  · have hcount : (Quoted.read quote rest).chars.length = _ :=
      (Quoted.length_chars _).trans (if_congr hclosed rfl rfl)
    rw [h.text_eq, ← Lexeme.plainText_take_read, hchars, hcount, hlength, ← htext]
    exact List.map_take
  · exact hstop
  · rw [h.about_eq rfl, hsame _ (by decide), hterminated, hplace, hlength]
    exact if_congr hclosed rfl rfl
  · exact ⟨_, Quoted.pairwise_breaks hquote rest, Quoted.mem_breaks_iff hquote rest, hinvalid⟩
  · intro hchar hnone
    have hwhole : Quoted.breaks (Quoted.read quote rest).items = [] := by
      rwa [hinvalid, List.map_eq_nil_iff, List.map_eq_nil_iff] at hnone
    obtain ⟨pieces, hpieces, hflatten, hitems⟩ := Quoted.exists_pieces hquote hwhole
    refine ⟨pieces, hpieces, hflatten, fun others hothers heq => ?_, ?_⟩
    · exact Quoted.uniquelyDecodable_piece hquote _ _ hothers hpieces (heq.trans hflatten.symm)
    · rw [h.about_eq rfl, hillegal hchar, hitems, h.start_eq]

end IsAt

end Scan

namespace Source

/-- A literal between double quotes or apostrophes, however malformed, ends with the first quote
that stands behind an even number of backslashes, or else with its line or the input, which is
reported there. An invalid escape is reported for every backslash before the end that stands behind
an even number of others and is not followed by a whole escape, where none could go on, and for no
other. If none is reported of a literal between apostrophes, its text is made of characters and
escapes in one way only, and unless it is made of one of them that is reported at its start. -/
theorem quoted_extent (source : Source) (config : Config) (n : Nat) {quote : Char}
    (h : (source.nthScan config n).kind.HasQuote quote) :
    ∃ (text : List Char) (stop : Nat),
      source.slice? (source.nthScan config n).start.offset source.size = some text ∧
        text.head? = some quote ∧ (source.nthScan config n).IsQuoted quote text stop := by
  have hlexeme : (source.nthScan config n).kind ≠ .endOfInput := by
    intro hend
    rw [hend] at h
    cases h
  obtain ⟨place, c, rest, hat⟩ := source.exists_lexeme config n hlexeme
  obtain ⟨skipped, taken, hstep⟩ := (source.scannerAfter config n).exists_step
  obtain ⟨hc, hquoted⟩ := hat.isQuoted h hstep.stop_eq_locate
  refine ⟨_, _, ?_, rfl, hquoted⟩
  have hslice := source.slice?_advance_size place
  rw [← Cursor.advance_rest, ← hat.start_eq, hat.rest_eq, hc, plainText_cons] at hslice
  exact hslice

/-- Between these quotes an escape is unknown, another breaks off at a backslash that then escapes a
quote, and the last one breaks off at the end of the line. -/
theorem quoted_extent_at_breaks :
    let source := Source.ofString "\x22\\8\\x4\\\x22\\\n\x22"
    let scan := source.nthScan .full 0
    scan.kind.HasQuote '\x22' ∧
      scan.reports.map (fun report => (report.position.offset, report.fault)) =
        [(2, .invalidEscape), (6, .invalidEscape), (9, .invalidEscape),
          (9, .literalNotTerminated)] ∧
      ∃ (text : List Char) (stop : Nat),
        source.slice? scan.start.offset source.size = some text ∧
          text.head? = some '\x22' ∧ scan.IsQuoted '\x22' text stop := by
  have hstring : ((Source.ofString "\x22\\8\\x4\\\x22\\\n\x22").nthScan .full 0).kind =
      .string := by
    decide +kernel
  have hkind := Kind.HasQuote.string
  rw [← hstring] at hkind
  exact ⟨hkind, by decide +kernel, quoted_extent _ _ _ hkind⟩

end Source

end Lexis
