import Lexis.Lexeme.Reading

/-!
# Finding the next lexeme

Between two lexemes a reading passes over whitespace, and over comments where these are to be left
out. Every lexeme found brings the reading ahead (`Reading.length_next_rest_lt`), so there is an
end.
-/

namespace Lexis

namespace Reading

theorem skipWhitespace_rest (config : Config) (r : Reading) :
    (r.skipWhitespace config).rest =
      r.rest.drop (r.rest.takeWhile fun c => config.isWhitespace c.char).length :=
  bumps_rest r _

theorem length_skipWhitespace_rest_le (config : Config) (r : Reading) :
    (r.skipWhitespace config).rest.length ≤ r.rest.length := by
  rw [skipWhitespace_rest, List.length_drop]
  omega

/-- Reading a lexeme gets ahead. -/
theorem length_consume_read_lt (mode : Mode) (r : Reading) {c : SourceChar} {rest : List SourceChar}
    (h : r.rest = c :: rest) :
    (r.consume (.read mode c rest)).rest.length < r.rest.length := by
  have hpos := List.length_pos_iff.2 (Lexeme.chars_read_ne_nil mode c rest)
  rw [consume_rest, List.length_drop]
  simp only [h, List.length_cons]
  omega

end Reading

/-- A lexeme in its place, or the end of the input. -/
structure Found where
  /-- Nothing at the end of the input. -/
  lexeme? : Option Lexeme
  /-- The reading up to the lexeme. -/
  before : Reading
  /-- The reading through the lexeme. -/
  after : Reading
deriving DecidableEq, Repr

namespace Found

/-- What was found. -/
def kind (found : Found) : Kind :=
  match found.lexeme? with
  | some lexeme => lexeme.kind
  | none => .endOfInput

/-- The characters of the lexeme. -/
def text (found : Found) : List Char :=
  match found.lexeme? with
  | some lexeme => lexeme.text
  | none => []

end Found

namespace Reading

/-- Reads on to the next lexeme that is not left out, and through it. -/
def next (config : Config) (r : Reading) : Found :=
  let before := r.skipWhitespace config
  match h : before.rest with
  | [] => ⟨none, before, before⟩
  | c :: rest =>
    let lexeme := Lexeme.read config.mode c rest
    let after := before.consume lexeme
    have : after.rest.length < r.rest.length :=
      Nat.lt_of_lt_of_le (length_consume_read_lt config.mode before h)
        (length_skipWhitespace_rest_le config r)
    if lexeme.isComment && config.mode.has .skipComments then next config after
    else ⟨some lexeme, before, after⟩
termination_by r.rest.length

/-- Every lexeme brings the reading ahead. -/
theorem length_next_rest_lt (config : Config) (r : Reading)
    (h : (r.next config).lexeme? ≠ none) :
    (r.next config).after.rest.length < r.rest.length := by
  fun_induction next config r with
  | case1 r before he => exact absurd rfl h
  | case2 r before c rest he lexeme after hlt _ ih => exact Nat.lt_trans (ih h) hlt
  | case3 r before c rest he lexeme after hlt _ => exact hlt

end Reading

end Lexis
