import Lexis.Proofs.Lexeme.Form
import Lexis.Proofs.Token.Unquote

/-!
# Writing values as literals

A value can be written between double quotes, between apostrophes or between backticks
(`Quoting.write`). Between backticks every character stands for itself. Between the others, the
characters that cannot stand there are escaped, so that the body is written as it has to be
(`Quoting.bodyText_spelled`) and denotes the value (`Quoting.unquote_spelled`).
-/

namespace Lexis

namespace Quoting

/-- The characters that are escaped, and what is written behind the backslash for each. -/
def escapes : Quoting → List (Char × List Char)
  | double => [('\x22', ['\x22']), ('\x5c', ['\x5c']), ('\n', ['n']), ('\x00', ['x', '0', '0'])]
  | single => [('\x27', ['x', '2', '7']), ('\x22', ['x', '2', '2']), ('\x5c', ['\x5c']),
      ('\n', ['n']), ('\x00', ['x', '0', '0'])]
  | backticks => []

/-- What is written for a character. -/
def spell (quoting : Quoting) (c : Char) : List Char :=
  match quoting.escapes.lookup c with
  | some escape => '\x5c' :: escape
  | none => [c]

/-- What is written for a text, without the marks. -/
def spelled (quoting : Quoting) (text : List Char) : List Char :=
  text.flatMap quoting.spell

/-- The literal that a value is written as. -/
def write (quoting : Quoting) (value : String) : List Char :=
  quoting.mark :: quoting.spelled value.toList ++ [quoting.mark]

/-- Between backticks there is no way to write a backtick, and a NUL would be reported. -/
def CanWrite (quoting : Quoting) (value : String) : Prop :=
  quoting = backticks → '\x60' ∉ value.toList ∧ '\x00' ∉ value.toList

instance (quoting : Quoting) (value : String) : Decidable (quoting.CanWrite value) :=
  inferInstanceAs (Decidable (quoting = backticks → _ ∧ _))

/-- The kind of the token that is to come out. -/
def kind (quoting : Quoting) (value : String) : Kind :=
  match quoting with
  | double => .string
  | single => if value.length ≤ 1 then .char else .string
  | backticks => .rawString

/-! ## One character -/

variable {quoting : Quoting}

/-- What is written for an escaped character is a whole escape, and stands for the character. -/
theorem escape_of_mem {c : Char} {escape : List Char} (h : (c, escape) ∈ quoting.escapes) :
    EscapeText quoting.mark escape ∧ '\x00' ∉ escape ∧ ∀ rest,
      Unquote.readEscape (escape ++ rest) = .ok (String.utf8EncodeChar c, rest) := by
  have hbyte {digits : List Char} (hlength : digits.length = 2)
      (hdigits : digits.all Text.isHexDigit = true) : EscapeText quoting.mark ('x' :: digits) :=
    .hexadecimal rfl hlength (List.all_eq_true.1 hdigits)
  cases quoting with
  | double =>
    simp only [escapes, List.mem_cons, Prod.mk.injEq, List.not_mem_nil, or_false] at h
    rcases h with ⟨rfl, rfl⟩ | ⟨rfl, rfl⟩ | ⟨rfl, rfl⟩ | ⟨rfl, rfl⟩
    · exact ⟨.quote, by decide, fun rest => rfl⟩
    · exact ⟨.simple rfl, by decide, fun rest => rfl⟩
    · exact ⟨.simple rfl, by decide, fun rest => rfl⟩
    · exact ⟨hbyte rfl rfl, by decide, fun rest => rfl⟩
  | single =>
    simp only [escapes, List.mem_cons, Prod.mk.injEq, List.not_mem_nil, or_false] at h
    rcases h with ⟨rfl, rfl⟩ | ⟨rfl, rfl⟩ | ⟨rfl, rfl⟩ | ⟨rfl, rfl⟩ | ⟨rfl, rfl⟩
    · exact ⟨hbyte rfl rfl, by decide, fun rest => rfl⟩
    · exact ⟨hbyte rfl rfl, by decide, fun rest => rfl⟩
    · exact ⟨.simple rfl, by decide, fun rest => rfl⟩
    · exact ⟨.simple rfl, by decide, fun rest => rfl⟩
    · exact ⟨hbyte rfl rfl, by decide, fun rest => rfl⟩
  | backticks => cases h

/-- A character that is not escaped can stand between the quotes. -/
theorem ne_of_lookup_eq_none (hquoting : quoting ≠ backticks) {c : Char}
    (h : quoting.escapes.lookup c = none) :
    c ≠ quoting.mark ∧ c ≠ '\n' ∧ c ≠ '\x5c' ∧ c ≠ '\x22' ∧ c ≠ '\x00' := by
  have hall := List.lookup_eq_none_iff.1 h
  cases quoting with
  | double => simp_all [escapes, mark]
  | single => simp_all [escapes, mark]
  | backticks => exact absurd rfl hquoting

/-- A character is written as itself or as an escape that stands for it. -/
theorem spell_cases (quoting : Quoting) (c : Char) :
    (quoting.escapes.lookup c = none ∧ quoting.spell c = [c]) ∨
      ∃ escape, (c, escape) ∈ quoting.escapes ∧ quoting.spell c = '\x5c' :: escape := by
  cases hlookup : quoting.escapes.lookup c with
  | none => exact .inl ⟨rfl, by rw [spell, hlookup]⟩
  | some escape =>
    obtain ⟨before, after, hescapes, -⟩ := List.lookup_eq_some_iff.1 hlookup
    refine .inr ⟨escape, ?_, by rw [spell, hlookup]⟩
    rw [hescapes]
    exact List.mem_append_right _ List.mem_cons_self

/-! ## Bodies -/

theorem spelled_cons (quoting : Quoting) (c : Char) (text : List Char) :
    quoting.spelled (c :: text) = quoting.spell c ++ quoting.spelled text :=
  List.flatMap_cons

theorem spelled_backticks (text : List Char) : backticks.spelled text = text := by
  induction text with
  | nil => rfl
  | cons c text ih =>
    rw [spelled_cons, ih]
    rfl

/-- What is written between quotes is written as it has to be. -/
theorem bodyText_spelled (hquoting : quoting ≠ backticks) (text : List Char) :
    BodyText quoting.mark (quoting.spelled text) := by
  induction text with
  | nil => exact .nil
  | cons c text ih =>
    rw [spelled_cons]
    rcases quoting.spell_cases c with ⟨hnone, hspell⟩ | ⟨escape, hmem, hspell⟩
    · obtain ⟨hmark, hend, hslash, -⟩ := ne_of_lookup_eq_none hquoting hnone
      rw [hspell]
      exact .plain hmark hend hslash ih
    · rw [hspell]
      exact .escape (escape_of_mem hmem).1 ih

/-- No NUL is written. -/
theorem nul_notMem_spelled {value : String} (h : quoting.CanWrite value) :
    '\x00' ∉ quoting.spelled value.toList := by
  by_cases hquoting : quoting = backticks
  · rw [hquoting, spelled_backticks]
    exact (h hquoting).2
  intro hmem
  obtain ⟨c, -, hc⟩ := List.mem_flatMap.1 hmem
  rcases quoting.spell_cases c with ⟨hnone, hspell⟩ | ⟨escape, hescape, hspell⟩
  · rw [hspell, List.mem_singleton] at hc
    exact (ne_of_lookup_eq_none hquoting hnone).2.2.2.2 hc.symm
  · rw [hspell, List.mem_cons] at hc
    exact (escape_of_mem hescape).2.1 (hc.resolve_left (by decide))

/-- What is written between quotes stands for the bytes of the text. -/
theorem readBody_spelled (hquoting : quoting ≠ backticks) (text : List Char) :
    Unquote.readBody (quoting.spelled text) = .ok (Utf8.bytesOf text) := by
  induction text with
  | nil => exact Unquote.readBody_nil
  | cons c text ih =>
    rw [spelled_cons]
    rcases quoting.spell_cases c with ⟨hnone, hspell⟩ | ⟨escape, hmem, hspell⟩
    · obtain ⟨-, -, hslash, hquote, -⟩ := ne_of_lookup_eq_none hquoting hnone
      rw [hspell, List.singleton_append, Unquote.readBody_plain hquote hslash, ih]
      rfl
    · have hescape := (escape_of_mem hmem).2.2 (quoting.spelled text)
      rw [hspell, List.cons_append, Unquote.readBody_escape_of_ok hescape, ih]
      rfl

/-- Between double quotes, what is written between quotes of either kind has the text as its
value. -/
theorem unquote_spelled (hquoting : quoting ≠ backticks) (value : String) :
    unquote ('\x22' :: quoting.spelled value.toList ++ ['\x22']) = .ok value := by
  have hmark : quoting.mark ≠ '\n' := by
    cases quoting <;> decide
  have hend := (bodyText_spelled hquoting value.toList).newline_notMem hmark
  rw [unquote_quoted hend, readBody_spelled hquoting]
  show Unquote.ofBytes _ = _
  rw [Unquote.ofBytes_bytesOf, String.ofList_toList]

end Quoting

end Lexis
