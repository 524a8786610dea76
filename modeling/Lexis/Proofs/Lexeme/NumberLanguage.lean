import Lexis.Proofs.Lexeme.NumberReading

/-!
# The language of numbers

A number that is read has no faults exactly where its text is a literal, and then it is the longest
literal that the source starts with (`Number.language_read`).
-/

namespace Lexis

/-- How numbers are written, floats only where they are asked for. -/
def NumberLiteral (floats : Bool) (text : List Char) : Prop :=
  IntLiteral text ∨ floats = true ∧ FloatLiteral text

/-- The text is of the language, and the source starts with no longer one that is. -/
structure IsLongest (language : List Char → Prop) (text source : List Char) : Prop where
  holds : language text
  isPrefix : text <+: source
  length_le : ∀ other, language other → other <+: source → other.length ≤ text.length

/-- Plain characters at the start of what a source shows stand at the start of the source. -/
theorem map_valid_prefix {text : List Char} {source : List SourceChar}
    (hplain : ∀ c ∈ text, IsPlain c) (h : text <+: plainText source) :
    text.map .valid <+: source := by
  induction text generalizing source with
  | nil => exact List.nil_prefix
  | cons c text ih =>
    cases source with
    | nil => exact absurd (List.prefix_nil.1 h) (List.cons_ne_nil _ _)
    | cons d source =>
      rw [plainText_cons, List.cons_prefix_cons] at h
      obtain ⟨hc, hmore⟩ := List.forall_mem_cons.1 hplain
      have hd : d = .valid c := by
        rw [h.1] at hc ⊢
        exact SourceChar.eq_valid_of_isPlain hc
      rw [List.map_cons, hd]
      exact (List.prefix_cons_inj _).2 (ih hmore h.2)

namespace Number

/-- A number is read as plain characters, so those of a well-written one are plain. -/
theorem Composed.isPlain_text {m : Number} (hcomposed : m.Composed) (hwell : m.WellFormed) :
    ∀ c ∈ m.text, IsPlain c := by
  obtain ⟨more, htext, -⟩ := @read_text_append m true hcomposed hwell (.inl rfl) []
  intro c hc
  refine (begins_read true (m.text.map .valid ++ [])).isPlain c ?_
  rw [htext]
  exact List.mem_append_left _ hc

section
variable {floats : Bool} {text : List Char}

/-- Every literal is the text of a well-written number. -/
theorem exists_of_literal (h : NumberLiteral floats text) :
    ∃ m : Number, m.text = text ∧ m.Composed ∧ m.WellFormed ∧
      (floats = true ∨ m.kind = .integer) := by
  rcases h with hint | ⟨hfloats, hfloat⟩
  · obtain ⟨m, htext, hcomposed, hwell, hkind⟩ := hint.exists_number
    exact ⟨m, htext, hcomposed, hwell, .inr hkind⟩
  · obtain ⟨m, htext, hcomposed, hwell, -⟩ := hfloat.exists_number
    exact ⟨m, htext, hcomposed, hwell, .inl hfloats⟩

variable {source : List SourceChar}

/-- A well-written number whose text is all that is read is what is read. -/
theorem read_eq_of_text_eq {m : Number} (hcomposed : m.Composed) (hwell : m.WellFormed)
    (hfloats : floats = true ∨ m.kind = .integer) (h : (read floats source).text = m.text) :
    read floats source = m := by
  obtain ⟨rest, hrest⟩ := (begins_read floats source).isPrefix
  rw [h] at hrest
  obtain ⟨more, htext, hsame⟩ := read_text_append hcomposed hwell hfloats rest
  rw [hrest, h, List.self_eq_append_right] at htext
  rw [hrest] at hsame
  exact hsame htext

/-- No literal at the start of the source is longer than the number that is read. -/
theorem length_le_of_literal (h : NumberLiteral floats text) (hstarts : text <+: plainText source) :
    text.length ≤ (read floats source).text.length := by
  obtain ⟨m, rfl, hcomposed, hwell, hfloats⟩ := exists_of_literal h
  obtain ⟨rest, hrest⟩ := map_valid_prefix (hcomposed.isPlain_text hwell) hstarts
  obtain ⟨more, htext, -⟩ := read_text_append hcomposed hwell hfloats rest
  rw [← hrest, htext, List.length_append]
  omega

theorem kind_read_false (source : List SourceChar) : (read false source).kind = .integer := rfl

/-- Only a well-written integer has the text of an integer literal. -/
theorem wellFormed_of_intLiteral (h : IntLiteral (read floats source).text) :
    (read floats source).WellFormed ∧ (read floats source).kind = .integer := by
  obtain ⟨m, htext, hcomposed, hwell, hkind⟩ := h.exists_number
  rw [read_eq_of_text_eq hcomposed hwell (.inr hkind) htext.symm]
  exact ⟨hwell, hkind⟩

/-- Only a well-written float has the text of a float literal, where there are floats. -/
theorem wellFormed_of_floatLiteral (hfloats : floats = true)
    (h : FloatLiteral (read floats source).text) :
    (read floats source).WellFormed ∧ (read floats source).kind = .float := by
  obtain ⟨m, htext, hcomposed, hwell, hkind⟩ := h.exists_number
  rw [read_eq_of_text_eq hcomposed hwell (.inl hfloats) htext.symm]
  exact ⟨hwell, hkind⟩

theorem wellFormed_iff_literal (floats : Bool) (source : List SourceChar) :
    (read floats source).WellFormed ↔ NumberLiteral floats (read floats source).text := by
  have hcomposed := composed_read floats source
  constructor
  · intro hwell
    by_cases hkind : (read floats source).kind = .integer
    · exact .inl (intLiteral_text hcomposed hwell hkind)
    · refine .inr ⟨?_, floatLiteral_text hcomposed hwell (kind_eq_float_iff.2 hkind)⟩
      -- without floats every number is of integer kind
      cases floats with
      | true => rfl
      | false => exact absurd (kind_read_false source) hkind
  · rintro (h | ⟨hfloats, h⟩)
    · exact (wellFormed_of_intLiteral h).1
    · exact (wellFormed_of_floatLiteral hfloats h).1

/-- A literal that is all that is read is the longest one at the start of the source. -/
theorem isLongest_of_literal (h : NumberLiteral floats (read floats source).text) :
    IsLongest (NumberLiteral floats) (read floats source).text (plainText source) := by
  constructor
  · exact h
  · obtain ⟨rest, hrest⟩ := (begins_read floats source).isPrefix
    refine ⟨plainText rest, ?_⟩
    rw [← hrest, plainText_append, plainText_map_valid]
    rw [hrest]
  · exact fun other hother hstarts => length_le_of_literal hother hstarts

/-- A number that is read has no faults where its text is a literal. It is then the longest literal
that the source starts with, and its kind is that of the literal. -/
theorem language_read (floats : Bool) (source : List SourceChar) :
    ((read floats source).faults = [] ↔ NumberLiteral floats (read floats source).text) ∧
      ((read floats source).faults = [] →
        IsLongest (NumberLiteral floats) (read floats source).text (plainText source) ∧
        ((read floats source).kind = .integer ↔ IntLiteral (read floats source).text) ∧
        (floats = true →
          ((read floats source).kind = .float ↔ FloatLiteral (read floats source).text))) := by
  have hcomposed := composed_read floats source
  rw [faults_eq_nil_iff hcomposed]
  refine ⟨wellFormed_iff_literal floats source, fun hwell => ⟨?_, ?_, fun hfloats => ?_⟩⟩
  · exact isLongest_of_literal ((wellFormed_iff_literal floats source).1 hwell)
  · exact ⟨intLiteral_text hcomposed hwell, fun h => (wellFormed_of_intLiteral h).2⟩
  · exact ⟨floatLiteral_text hcomposed hwell,
      fun h => (wellFormed_of_floatLiteral hfloats h).2⟩

end

/-! ## Numbers without floats -/

/-- Where there are no floats, no number has a point or an exponent: letters that announce one are
hexadecimal digits. -/
theorem mem_text_read_false (source : List SourceChar) {c : Char}
    (hc : c ∈ (read false source).text) :
    c ∉ ['.', 'p', 'P'] ∧
      (c ∈ ['e', 'E'] → ∃ letter rest, (letter = 'x' ∨ letter = 'X') ∧
        (read false source).text = '0' :: letter :: rest) := by
  have hcomposed := composed_read false source
  have htail : (read false source).tail = [] := rfl
  generalize read false source = n at hc hcomposed htail ⊢
  rcases hcomposed.mem_text hc with hmark | hwhole | hmem
  · have hnone : c ∉ ['.', 'p', 'P'] ∧ c ∉ ['e', 'E'] := by
      simp only [List.mem_cons, List.not_mem_nil, or_false] at hmark
      rcases hmark with rfl | rfl | rfl | rfl | rfl | rfl | rfl <;> decide
    exact ⟨hnone.1, fun he => absurd he hnone.2⟩
  · have haccepts := hcomposed.whole c hwhole
    have hpoint : ∀ radix : Radix, ∀ c ∈ ['.', 'p', 'P'], radix.accepts c = false := by
      intro radix c hc
      simp only [List.mem_cons, List.not_mem_nil, or_false] at hc
      rcases hc with rfl | rfl | rfl <;> cases radix <;> decide
    have hletter : ∀ radix : Radix, ∀ c ∈ ['e', 'E'], radix.accepts c = true →
        radix = .hexadecimal := by
      intro radix c hc
      simp only [List.mem_cons, List.not_mem_nil, or_false] at hc
      rcases hc with rfl | rfl <;> cases radix <;> decide
    constructor
    · intro hmem
      rw [hpoint _ c hmem] at haccepts
      cases haccepts
    · intro hmem
      have hradix := hletter _ c hmem haccepts
      obtain ⟨letter, hx, hlead⟩ := Radix.LeadFits.of_hexadecimal (hradix ▸ hcomposed.lead)
      exact ⟨letter, n.whole ++ n.tail, hx, by rw [text_eq, hlead]; rfl⟩
  · rw [htail] at hmem
    cases hmem

end Number

end Lexis
