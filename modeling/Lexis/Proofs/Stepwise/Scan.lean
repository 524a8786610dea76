import Lexis.Proofs.Scanner.Number
import Lexis.Proofs.Stepwise.Enclosed
import Lexis.Proofs.Stepwise.Number
import Lexis.Proofs.Stepwise.Quoted
import Lexis.Proofs.Stepwise.CharacterClasses

/-!
# Scanning step by step, and at once

A head that reads a lexeme looks at its first character and goes on as the forms of lexemes ask for.
Whatever the mode is and whatever stands there, it comes to the end of the lexeme that
`Lexeme.read` finds, and it has reported what `Reading.consume` reports (`Reading.lexeme?_head`). So
a scan in steps gives what `Reading.next` gives, where its loops may go round once more than there
are characters left (`Reading.scan?_head`).
-/

namespace Lexis

namespace Reading

variable {r : Reading} {c : SourceChar} {more : List SourceChar} {rounds : Nat}

theorem consumeQuoted_read (r : Reading) (quote : Char) (rest : List SourceChar) :
    r.consumeQuoted (.read quote rest) = r.bump.consumeItems (Quoted.readItems quote rest) := rfl

/-- Where everything has been read, a head tells the end of the input and stays. -/
theorem lexeme?_head_of_rest_eq_nil (mode : Mode) (rounds : Nat) (h : r.Stands)
    (hrest : r.rest = []) :
    Stepper.lexeme? mode rounds r.head = some (some .endOfInput, r.head) := by
  rw [Stepper.lexeme?, Head.head_eq, char?_head h, Cursor.currentChar?_of_rest_eq_nil hrest]
  rfl

/-- What a head tells of a lexeme: its kind, or nothing of a comment that is to be left out. -/
def told (mode : Mode) (l : Lexeme) : Option Kind :=
  if l.isComment && mode.has .skipComments then none else some l.kind

/-- A number is read from its first digit on. -/
theorem number?_head (floats : Bool) (h : r.Stands) (hrounds : r.rest.length < rounds) :
    (Stepper.mantissa? rounds floats r.head).bind
        (Stepper.numberEnd? rounds floats r.head.position) =
      some ((Number.read floats r.rest).kind, (r.consumeNumber (.read floats r.rest)).head) := by
  have hm := Number.isRead_read floats r.rest
  obtain ⟨seen, hmantissa, hseen⟩ := mantissa?_head hm h hrounds
  rw [hmantissa, Option.bind_some]
  exact numberEnd?_head hm h hrounds hseen

/-- A number that starts with its radix point is read from behind the point on. -/
theorem pointNumber?_head (hrest : r.rest = .valid '.' :: more) (h : r.Stands)
    (hrounds : r.rest.length < rounds) :
    (Stepper.fraction? rounds r.bump.head).bind
        (Stepper.numberEnd? rounds true r.head.position) =
      some ((Number.read true r.rest).kind, (r.consumeNumber (.read true r.rest)).head) := by
  have hm := Number.isRead_read true r.rest
  obtain ⟨seen, hfraction, hseen⟩ := fraction?_head hrest hm h hrounds
  rw [bump_eq_ahead hrest (by decide), hfraction, Option.bind_some]
  exact numberEnd?_head hm h hrounds hseen

/-- Behind a point, the byte tells whether a number starts with it. -/
theorem point?_head (mode : Mode) (hrest : r.rest = .valid '.' :: more) (h : r.Stands)
    (hrounds : r.rest.length < rounds) :
    Stepper.point? mode rounds r.head.position r.bump.head =
      some (told mode (.read mode (.valid '.') more),
        (r.consume (.read mode (.valid '.') more)).head) := by
  have hbump : r.bump.rest = more := by rw [bump_rest, hrest, List.drop_one, List.tail_cons]
  have htest := @test_current r.bump Char.isDigit fun c hc =>
    ⟨(isPlain_of_isDigit hc).lt, by
      rintro rfl
      exact absurd hc (by decide)⟩
  have hnumber := pointNumber?_head hrest h hrounds
  rw [hbump] at htest
  rw [hrest] at hnumber
  rw [Stepper.point?, Head.head_eq, byteChar?_head h.bump, Lexeme.read_point]
  simp only [Option.bind_eq_bind, Option.bind_some, htest]
  split
  · rw [← Option.bind_assoc, hnumber]
    rfl
  · rfl

/-- Behind a slash, the byte tells whether a comment starts with it. -/
theorem slash?_head (mode : Mode) (hrest : r.rest = .valid '/' :: more) (h : r.Stands) :
    Stepper.slash? mode r.bump.head =
      some (told mode (.read mode (.valid '/') more),
        (r.consume (.read mode (.valid '/') more)).head) := by
  have hbump : r.bump.rest = more := by rw [bump_rest, hrest, List.drop_one, List.tail_cons]
  have hslash := @ofNat_current_eq_iff r.bump '/' (by decide) (by decide)
  have hasterisk := @ofNat_current_eq_iff r.bump '*' (by decide) (by decide)
  rw [hbump] at hslash hasterisk
  rw [Stepper.slash?, Head.head_eq, byteChar?_head h.bump, Lexeme.read_slash]
  simp only [Option.bind_eq_bind, Option.bind_some, Bool.and_eq_true, Bool.or_eq_true,
    decide_eq_true_eq]
  by_cases hmode : mode.has .comments = true
  · rw [if_pos hmode]
    by_cases hline : Char.ofNat r.bump.cursor.current.toNat = '/'
    · obtain ⟨rest, rfl⟩ := hslash.1 hline
      rw [if_pos ⟨.inl hline, hmode⟩, comment?_head_of_slash h.bump hbump, hbump]
      rfl
    by_cases hblock : Char.ofNat r.bump.cursor.current.toNat = '*'
    · obtain ⟨rest, rfl⟩ := hasterisk.1 hblock
      rw [if_pos ⟨.inr hblock, hmode⟩, comment?_head_of_asterisk h.bump hbump]
      rfl
    · rw [if_neg fun hboth => hboth.1.elim hline hblock]
      split
      · exact absurd (hslash.2 ⟨_, rfl⟩) hline
      · exact absurd (hasterisk.2 ⟨_, rfl⟩) hblock
      · rfl
  · rw [if_neg hmode, if_neg fun hboth => hmode hboth.2]
    rfl

/-- A lexeme is read to its end, and its faults are reported. -/
theorem lexeme?_head (mode : Mode) (h : r.Stands) (hrest : r.rest = c :: more)
    (hrounds : r.rest.length < rounds) :
    Stepper.lexeme? mode rounds r.head =
      some (told mode (.read mode c more), (r.consume (.read mode c more)).head) := by
  have hbump : r.bump.rest = more := by rw [bump_rest, hrest, List.drop_one, List.tail_cons]
  have hbehind : r.bump.rest.length < rounds := by
    rw [hbump]
    rw [hrest, List.length_cons] at hrounds
    omega
  rw [Stepper.lexeme?, Head.head_eq, char?_head h, Cursor.currentChar?_of_rest_eq_cons hrest]
  simp only [Option.bind_eq_bind, Option.bind_some, Head.bump?_eq, bump?_head h]
  -- a point and a slash are looked at again with what follows them
  by_cases hpoint : c = .valid '.'
  · subst hpoint
    rw [SourceChar.char_valid, if_neg (by decide +kernel), if_neg (by decide), if_neg (by simp),
      if_neg (by simp), if_neg (by simp), if_pos rfl]
    exact point?_head mode hrest h hrounds
  by_cases hslash : c = .valid '/'
  · subst hslash
    rw [SourceChar.char_valid, if_neg (by decide +kernel), if_neg (by decide), if_neg (by simp),
      if_neg (by simp), if_neg (by simp), if_neg (by decide), if_pos rfl]
    exact slash?_head mode hrest h
  have hnoPoint : c.char ≠ '.' := fun he => hpoint (Lexeme.eq_valid_of_char_eq he (by decide))
  have hnoSlash : c.char ≠ '/' := fun he => hslash (Lexeme.eq_valid_of_char_eq he (by decide))
  unfold Lexeme.read
  simp only [hnoPoint, hnoSlash, if_false, decide_false, Bool.false_and, Bool.false_eq_true]
  by_cases hstart : isIdentifierStart c.char = true
  · rw [if_pos hstart, if_pos hstart]
    by_cases hmode : mode.has .identifiers = true
    · rw [if_pos hmode, if_pos hmode, skipWhile?_head identifierPart?_eq h.bump hbehind, hbump]
      rfl
    · rw [if_neg hmode, if_neg hmode]
      rfl
  rw [if_neg hstart, if_neg hstart]
  by_cases hdigit : c.char.isDigit = true
  · rw [if_pos hdigit, if_pos hdigit]
    by_cases hmode : (mode.has .integers || mode.has .floats) = true
    · have hnumber := number?_head (mode.has .floats) h hrounds
      rw [hrest] at hnumber
      rw [if_pos hmode, if_pos hmode, ← Option.bind_assoc, hnumber]
      rfl
    · rw [if_neg hmode, if_neg hmode]
      rfl
  rw [if_neg hdigit, if_neg hdigit]
  by_cases hstring : (c.char = '\x22' && mode.has .strings) = true
  · rw [if_pos hstring, if_pos hstring, items?_head '\x22' 0 h.bump hbehind, hbump]
    rfl
  rw [if_neg hstring, if_neg hstring]
  by_cases hcharMode : (c.char = '\x27' && mode.has .chars) = true
  · rw [if_pos hcharMode, if_pos hcharMode, items?_head '\x27' 0 h.bump hbehind, hbump,
      Option.bind_some, Nat.zero_add, consume, consumeQuoted_read]
    have hitems : (Quoted.read '\x27' more).items = (Quoted.readItems '\x27' more).1 := rfl
    rw [hitems]
    split
    · rfl
    · rfl
  rw [if_neg hcharMode, if_neg hcharMode]
  by_cases hraw : (c.char = '\x60' && mode.has .rawStrings) = true
  · rw [if_pos hraw, if_pos hraw,
      enclosed?_head h.bump Lexeme.backtick_ne_nil Lexeme.ascii_backtick, hbump]
    rfl
  rw [if_neg hraw, if_neg hraw]
  rfl

/-! ## Scans -/

theorem Stands.consume_read (h : r.Stands) (mode : Mode) (hrest : r.rest = c :: more) :
    (r.consume (.read mode c more)).Stands :=
  h.of_cursor_eq (passage_consume_read mode hrest).cursor_eq

/-- A head goes over the whitespace before a lexeme. -/
theorem skipWhitespace_head (config : Config) (h : r.Stands) (hrounds : r.rest.length < rounds) :
    Stepper.skipWhile? (whitespace? config) rounds r.head = some (r.skipWhitespace config).head :=
  skipWhile?_head (whitespace?_eq config) h hrounds

/-- A scan in steps finds the next lexeme, wherever it starts, if its loops may go round once more
than there are characters left. -/
theorem scan?_head (config : Config) (h : r.Stands) (hrounds : r.rest.length < rounds) :
    Stepper.scan? config rounds r.head =
      some ((r.next config).kind, (r.next config).before.position, (r.next config).after.head) := by
  induction rounds generalizing r with
  | zero => exact absurd hrounds (Nat.not_lt_zero _)
  | succ rounds ih =>
    have hstands : (r.skipWhitespace config).Stands := h.bumps _
    have hle := length_skipWhitespace_rest_le config r
    rw [Stepper.scan?, skipWhitespace_head config h hrounds]
    simp only [Option.bind_eq_bind, Option.bind_some]
    cases hrest : (r.skipWhitespace config).rest with
    | nil =>
      rw [lexeme?_head_of_rest_eq_nil config.mode (rounds + 1) hstands hrest,
        next_of_skipWhitespace_rest_eq_nil config hrest]
      rfl
    | cons c more =>
      have hlt := length_consume_read_lt config.mode _ hrest
      rw [lexeme?_head config.mode hstands hrest (by omega),
        next_of_skipWhitespace_rest_eq_cons config hrest, Option.bind_some, told]
      dsimp only
      by_cases hskipped : ((Lexeme.read config.mode c more).isComment &&
          config.mode.has .skipComments) = true
      -- the comment takes up characters, so one round less is enough for what is left
      · rw [if_pos hskipped, if_pos hskipped]
        exact ih (hstands.consume_read config.mode hrest) (by omega)
      · rw [if_neg hskipped, if_neg hskipped]
        rfl

end Reading

end Lexis
