import Lexis.Proofs.Lexeme.FirstIndex
import Lexis.Proofs.Lexeme.Opening

/-!
# Text between an opening and a mark

Raw strings and comments of both forms start with an opening and run up to the first place behind it
where a mark stands, or else to the end of the input. `Enclosure.Extends` says so of a text by its
characters alone, and `Config.Skips` says in the same terms what is passed over before a lexeme;
both are settled by the text (`Config.Skips.unique`). A raw string or a comment that is read extends
so far (`Lexeme.extends_of_kind_eq_rawString`, `Lexeme.extends_of_isComment`), and nothing that
stands between opening and mark makes a difference.
-/

namespace Lexis

/-- A form of text that starts with an opening and runs up to a mark. -/
structure Enclosure where
  opening : List Char
  mark : List Char
  /-- Whether the mark belongs to the text. -/
  takesMark : Bool
  /-- What is wrong with a text that lacks its mark, if anything. -/
  openFault? : Option Fault

namespace Enclosure

/-- Everything between two backticks. -/
def rawString : Enclosure := ⟨['\x60'], ['\x60'], true, some .literalNotTerminated⟩

/-- Everything behind two slashes, up to the end of the line. -/
def lineComment : Enclosure := ⟨['/', '/'], ['\n'], false, none⟩

/-- Everything between a slash with an asterisk and an asterisk with a slash. -/
def blockComment : Enclosure := ⟨['/', '*'], ['*', '/'], true, some .commentNotTerminated⟩

/-- The forms that are comments. -/
inductive IsComment : Enclosure → Prop
  | lineComment : IsComment lineComment
  | blockComment : IsComment blockComment

/-- The mark stands at an index, behind the opening. -/
def MarkedAt (e : Enclosure) (text : List Char) (i : Nat) : Prop :=
  e.opening.length ≤ i ∧ e.mark <+: text.drop i

/-- The first `n` characters of a text are of this form, and have the fault that is told. -/
inductive Extends (e : Enclosure) (text : List Char) : Nat → Option Fault → Prop
  /-- Up to the first mark behind the opening. -/
  | closed {i : Nat} (hopening : e.opening <+: text) (hfirst : IsLeast {i | e.MarkedAt text i} i) :
      Extends e text (if e.takesMark then i + e.mark.length else i) none
  /-- Up to the end of the text. -/
  | unclosed (hopening : e.opening <+: text) (hnone : ∀ i, ¬ e.MarkedAt text i) :
      Extends e text text.length e.openFault?

variable {e e' : Enclosure} {text : List Char} {m n : Nat} {f g : Option Fault}

theorem Extends.opening_isPrefix (h : e.Extends text n f) : e.opening <+: text := by
  cases h with
  | closed hopening => exact hopening
  | unclosed hopening => exact hopening

/-- Only what goes on to the end of the text is at fault. -/
theorem Extends.eq_length {fault : Fault} (h : e.Extends text n (some fault)) :
    n = text.length := by
  generalize hf : some fault = f at h
  cases h with
  | closed => cases hf
  | unclosed => rfl

theorem Extends.unique (h : e.Extends text n f) (h' : e.Extends text m g) : n = m ∧ f = g := by
  cases h with
  | closed _ hfirst =>
    cases h' with
    | closed _ hfirst' =>
      rw [hfirst.unique hfirst']
      exact ⟨rfl, rfl⟩
    | unclosed _ hnone => exact absurd hfirst.1 (hnone _)
  | unclosed _ hnone =>
    cases h' with
    | closed _ hfirst => exact absurd hfirst.1 (hnone _)
    | unclosed => exact ⟨rfl, rfl⟩

/-- A text starts with a comment of one form only. -/
theorem IsComment.unique (he : e.IsComment) (he' : e'.IsComment) (h : e.opening <+: text)
    (h' : e'.opening <+: text) : e = e' := by
  have hopening := List.prefix_or_prefix_of_prefix h h'
  cases he with
  | lineComment =>
    cases he' with
    | lineComment => rfl
    | blockComment => exact absurd hopening (by decide)
  | blockComment =>
    cases he' with
    | lineComment => exact absurd hopening (by decide)
    | blockComment => rfl

end Enclosure

/-! ## What is passed over -/

/-- The first `n` characters of a text are passed over before the next lexeme: whitespace and, where
they are left out, comments. What is told is the fault of a comment among them, which is the last,
as it goes on to the end of the text. -/
inductive Config.Skips (config : Config) : List Char → Nat → Option Fault → Prop
  | nothing {text : List Char} (hblank : ∀ c ∈ text.head?, config.isWhitespace c = false)
      (hcomment : config.mode.leavesOutComments = true →
        ∀ e : Enclosure, e.IsComment → ¬ e.opening <+: text) :
      Skips config text 0 none
  | whitespace {c : Char} {text : List Char} {n : Nat} {f : Option Fault}
      (hc : config.isWhitespace c = true) (hskips : Skips config text n f) :
      Skips config (c :: text) (n + 1) f
  | comment {e : Enclosure} {text : List Char} {n m : Nat} {f g : Option Fault}
      (hmode : config.mode.leavesOutComments = true) (he : e.IsComment)
      (hblank : ∀ c ∈ text.head?, config.isWhitespace c = false) (hextends : e.Extends text n f)
      (hskips : Skips config (text.drop n) m g) : Skips config text (n + m) (f.or g)

namespace Config.Skips

variable {config : Config} {text : List Char} {m n : Nat} {f g : Option Fault}

/-- The text settles how much of it is passed over. -/
theorem unique (h : config.Skips text n f) (h' : config.Skips text m g) : n = m ∧ f = g := by
  induction h generalizing m g with
  | nothing hblank hcomment =>
    cases h' with
    | nothing => exact ⟨rfl, rfl⟩
    | whitespace hc =>
      rw [hblank _ rfl] at hc
      cases hc
    | comment hmode he _ hextends => exact absurd hextends.opening_isPrefix (hcomment hmode _ he)
  | whitespace hc hskips ih =>
    cases h' with
    | nothing hblank =>
      rw [hblank _ rfl] at hc
      cases hc
    | whitespace _ hskips' =>
      obtain ⟨rfl, rfl⟩ := ih hskips'
      exact ⟨rfl, rfl⟩
    | comment _ _ hblank =>
      rw [hblank _ rfl] at hc
      cases hc
  | comment hmode he hblank hextends hskips ih =>
    cases h' with
    | nothing _ hcomment => exact absurd hextends.opening_isPrefix (hcomment hmode _ he)
    | whitespace hc =>
      rw [hblank _ rfl] at hc
      cases hc
    | comment _ he' _ hextends' hskips' =>
      obtain rfl := he.unique he' hextends.opening_isPrefix hextends'.opening_isPrefix
      obtain ⟨rfl, rfl⟩ := hextends.unique hextends'
      obtain ⟨rfl, rfl⟩ := ih hskips'
      exact ⟨rfl, rfl⟩

/-- In nothing there is nothing to pass over. -/
theorem nil (config : Config) : config.Skips [] 0 none := by
  refine .nothing (fun c hc => by cases hc) fun _ e he hopening => ?_
  cases he with
  | lineComment => cases hopening.length_le
  | blockComment => cases hopening.length_le

theorem whitespace_append {blanks : List Char}
    (hblanks : ∀ c ∈ blanks, config.isWhitespace c = true) (h : config.Skips text n f) :
    config.Skips (blanks ++ text) (blanks.length + n) f := by
  induction blanks with
  | nil => rwa [List.nil_append, List.length_nil, Nat.zero_add]
  | cons c blanks ih =>
    have htail := ih fun d hd => hblanks d (List.mem_cons_of_mem _ hd)
    rw [List.length_cons, Nat.succ_add]
    exact htail.whitespace (hblanks c List.mem_cons_self)

end Config.Skips

/-! ## Reading up to a mark -/

/-- The first mark in a source is told of by its index. -/
theorem Enclosed.indexOf?_eq_some_iff {mark : List Char} (hmark : mark ≠ [])
    {source : List SourceChar} {k : Nat} :
    indexOf? mark source = some k ↔ IsLeast {k | mark <+: (plainText source).drop k} k := by
  induction source generalizing k with
  | nil =>
    have hnone (k : Nat) : ¬ mark <+: (plainText []).drop k := by
      rw [plainText_nil, List.drop_nil, List.prefix_nil]
      exact hmark
    exact iff_of_false (fun h => by cases h) fun h => hnone k h.1
  | cons c rest ih =>
    have hzero : startsWith mark (c :: rest) = true ↔
        mark <+: (plainText (c :: rest)).drop 0 := startsWith_iff
    rw [indexOf?, isLeast_iff_of_zero, ← hzero]
    split
    · next hstarts => simp [hstarts, eq_comm]
    · next hstarts =>
      rw [Option.map_eq_some_iff, or_iff_right fun h => hstarts h.1, and_iff_right hstarts]
      simp only [ih, plainText_cons, List.drop_succ_cons, eq_comm]

/-- What is read up to a mark extends, from the opening before it on, up to the mark. -/
theorem Enclosure.extends_of_read {e : Enclosure} (hmark : e.mark ≠ []) {source : List SourceChar}
    {read : Enclosed} (hread : Enclosed.read e.mark source = read) :
    e.Extends (e.opening ++ plainText source)
      (e.opening.length + (if e.takesMark then read.charsThrough e.mark else read.body).length)
      (if read.closed then none else e.openFault?) := by
  have hopening : e.opening <+: e.opening ++ plainText source := List.prefix_append _ _
  rw [Enclosed.read] at hread
  split at hread
  · next k hfound =>
    -- the mark stands as much further on as the opening is long
    subst hread
    have hfirst := (Enclosed.indexOf?_eq_some_iff hmark).1 hfound
    have hk : (source.take k).length = k := by
      have hle := hfirst.1.length_le
      have hpos := List.length_pos_iff.2 hmark
      rw [List.length_drop, length_plainText] at hle
      rw [List.length_take]
      omega
    have hbehind : IsLeast {i | e.MarkedAt (e.opening ++ plainText source) i}
        (e.opening.length + k) := by
      refine isLeast_from_iff.2 ⟨k, ?_, rfl⟩
      simpa only [List.drop_length_add_append] using hfirst
    have hextends := Extends.closed hopening hbehind
    rw [if_pos rfl, Enclosed.charsThrough, if_pos rfl]
    split at hextends
    · next htakes =>
      rwa [if_pos htakes, List.length_append, List.length_map, hk, ← Nat.add_assoc]
    · next htakes => rwa [if_neg htakes, hk]
  · next hfound =>
    -- a mark behind the opening would be one in what is left
    subst hread
    have hnone (i : Nat) : ¬ e.MarkedAt (e.opening ++ plainText source) i := by
      rintro ⟨hle, hstarts⟩
      obtain ⟨k, rfl⟩ := Nat.exists_eq_add_of_le hle
      rw [List.drop_length_add_append] at hstarts
      exact Enclosed.not_infix_of_indexOf?_eq_none hmark hfound
        (hstarts.isInfix.trans (List.drop_suffix k _).isInfix)
    have hlength : (if e.takesMark then Enclosed.charsThrough e.mark ⟨source, false⟩
        else source).length = source.length := by
      simp [Enclosed.charsThrough]
    have hextends := Extends.unclosed hopening hnone
    rw [List.length_append, length_plainText] at hextends
    rwa [hlength, if_neg Bool.false_ne_true]

namespace Lexeme

/-- What is wrong with a raw string or a comment that lacks its mark. -/
def openFault? : Lexeme → Option Fault
  | rawString e => if e.closed then none else some .literalNotTerminated
  | blockComment e => if e.closed then none else some .commentNotTerminated
  | _ => none

variable {mode : Mode} {c : SourceChar} {rest : List SourceChar}

theorem extends_of_kind_eq_rawString (h : (read mode c rest).kind = .rawString) :
    Enclosure.rawString.Extends (plainText (c :: rest)) (read mode c rest).chars.length
      (read mode c rest).openFault? := by
  obtain ⟨rfl, hread⟩ := read_of_kind_eq .backticks h
  rw [hread, Quoting.read, chars, List.length_cons, Nat.add_comm]
  exact Enclosure.extends_of_read backtick_ne_nil rfl

theorem extends_of_isComment (h : (read mode c rest).isComment = true) :
    ∃ e : Enclosure, e.IsComment ∧ e.Extends (plainText (c :: rest))
      (read mode c rest).chars.length (read mode c rest).openFault? := by
  obtain ⟨-, rfl, ⟨more, rfl, hread⟩ | ⟨more, rfl, hread⟩⟩ := read_of_isComment h
  · -- the second slash is the first character of the text that runs up to the line end
    have hslash : Enclosed.startsWith lineEnd (.valid '/' :: more) = false := rfl
    have hextends : Enclosure.lineComment.Extends ('/' :: '/' :: plainText more)
        (2 + (Enclosed.read lineEnd more).body.length)
        (if (Enclosed.read lineEnd more).closed then none else none) :=
      Enclosure.extends_of_read (e := .lineComment) lineEnd_ne_nil rfl
    have hlength : (lineComment ⟨.valid '/' :: (Enclosed.read lineEnd more).body,
        (Enclosed.read lineEnd more).closed⟩).chars.length =
          2 + (Enclosed.read lineEnd more).body.length := Nat.add_comm _ 2
    rw [ite_self] at hextends
    refine ⟨_, .lineComment, ?_⟩
    rw [hread, Enclosed.read_cons hslash, hlength]
    exact hextends
  · have hlength : (blockComment (.read blockEnd more)).chars.length =
        2 + ((Enclosed.read blockEnd more).charsThrough blockEnd).length := Nat.add_comm _ 2
    refine ⟨_, .blockComment, ?_⟩
    rw [hread, hlength]
    exact Enclosure.extends_of_read (e := .blockComment) blockEnd_ne_nil rfl

end Lexeme

end Lexis
