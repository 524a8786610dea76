import Lexis.Proofs.Lexeme.Number
import Lexis.Proofs.Lexeme.NumberParts

/-!
# Reading number literals

A number that is read is composed of parts that fit together (`Number.composed_read`). Where the
text of a well-written number comes next, at least that much is read, and if it is all that is read,
then the parts are the same (`Number.read_text`).
-/

namespace Lexis

/-- What is left of a text behind its first part. -/
theorem drop_map_valid_append (first more : List Char) (rest : List SourceChar) :
    ((first ++ more).map SourceChar.valid ++ rest).drop first.length =
      more.map .valid ++ rest := by
  rw [List.map_append, List.append_assoc, List.drop_left' (List.length_map _)]

/-! ## Runs of digits -/

namespace Radix

theorem accepts_of_mem_run {radix : Radix} {source : List SourceChar} {c : Char}
    (h : c ∈ radix.run source) : radix.accepts c = true := by
  obtain ⟨d, hd, rfl⟩ := List.mem_map.1 h
  simpa using List.mem_takeWhile_imp hd

/-- A run ends where a character comes that is not accepted. -/
theorem not_accepts_of_drop_run {radix : Radix} {source rest : List SourceChar} {c : SourceChar}
    (h : source.drop (radix.run source).length = c :: rest) : radix.accepts c.char = false := by
  induction source with
  | nil => cases h
  | cons d source ih =>
    rw [run, List.takeWhile_cons] at h
    cases hd : radix.accepts d.char with
    | true =>
      rw [hd, if_pos rfl, plainText_cons, List.length_cons, List.drop_succ_cons] at h
      exact ih h
    | false =>
      rw [hd, if_neg Bool.false_ne_true] at h
      cases h
      exact hd

theorem run_cons_of_not_accepts {radix : Radix} {c : SourceChar} (h : radix.accepts c.char = false)
    (rest : List SourceChar) : radix.run (c :: rest) = [] := by
  rw [run, List.takeWhile_cons, h, if_neg Bool.false_ne_true]
  rfl

theorem run_append {radix : Radix} {text : List Char}
    (h : ∀ c ∈ text, radix.accepts c = true) (rest : List SourceChar) :
    radix.run (text.map .valid ++ rest) = text ++ radix.run rest := by
  rw [run, List.takeWhile_append_of_pos, plainText_append, plainText_map_valid]
  · rfl
  · intro c hc
    obtain ⟨d, hd, rfl⟩ := List.mem_map.1 hc
    exact h d hd

/-- A zero alone is a lead, unless a letter behind it asks for a radix. -/
theorem ofLead_zero_cons (rest : List SourceChar) :
    ofLead (.valid '0' :: rest) = (leadingZero, ['0']) ∨
      ∃ letter, (ofLead (.valid '0' :: rest)).2 = ['0', letter] := by
  unfold ofLead
  split
  · next letter _ _ =>
    split
    · exact .inr ⟨letter, rfl⟩
    · exact .inl rfl
  · exact .inl rfl
  · next hzero => exact absurd rfl (hzero rest)

/-- The lead that is read goes with the whole part that is read behind it. -/
theorem leadFits_ofLead (source : List SourceChar) :
    (ofLead source).1.LeadFits (ofLead source).2
      ((ofLead source).1.run (source.drop (ofLead source).2.length)) := by
  unfold ofLead
  split
  · next letter rest =>
    split
    · next hletter => exact .inr (.inr ⟨letter, hletter, rfl⟩)
    · exact .inr (.inl ⟨rfl, rfl⟩)
  · exact .inr (.inl ⟨rfl, rfl⟩)
  · next hzero =>
    refine .inl ⟨rfl, rfl, ?_⟩
    intro hhead
    cases source with
    | nil => cases hhead
    | cons c rest =>
      rw [List.length_nil, List.drop_zero, run, List.takeWhile_cons] at hhead
      split at hhead
      · have hc : c = .valid '0' := Lexeme.eq_valid_of_char_eq (Option.some.inj hhead) (by decide)
        exact hzero rest (by rw [hc])
      · cases hhead

end Radix

namespace Exponent

theorem of_read?_eq_some {source : List SourceChar} {e : Exponent} (h : read? source = some e) :
    isMarker e.marker = true ∧ (e.sign = [] ∨ e.sign = ['+'] ∨ e.sign = ['-']) ∧
      (∀ c ∈ e.digits, Radix.decimal.accepts c = true) ∧
      ∃ rest, source = .valid e.marker :: rest := by
  unfold read? at h
  split at h
  · next marker rest =>
    split at h
    · next hmarker =>
      cases h
      refine ⟨hmarker, ?_, fun c hc => Radix.accepts_of_mem_run hc, rest, rfl⟩
      cases rest with
      | nil => exact .inl rfl
      | cons c rest =>
        by_cases hplus : c.char = '+'
        · exact .inr (.inl (by simp [plainText, hplus]))
        by_cases hminus : c.char = '-'
        · exact .inr (.inr (by simp [plainText, hminus]))
        · exact .inl (by simp [plainText, hplus, hminus])
    · cases h
  · cases h

/-- An exponent with digits is read to the end of the run of digits that starts with them. -/
theorem read?_text_append {e : Exponent} (hmarker : isMarker e.marker = true)
    (hsign : e.sign = [] ∨ e.sign = ['+'] ∨ e.sign = ['-'])
    (hdigits : Digits Char.isDigit e.digits) (rest : List SourceChar) :
    read? (e.text.map .valid ++ rest) =
      some { e with digits := e.digits ++ Radix.decimal.run rest } := by
  have haccepts : ∀ c ∈ e.digits, Radix.decimal.accepts c = true := fun c hc =>
    Radix.accepts_iff.2 (hdigits.digit_or_separator c hc)
  have hrun := Radix.run_append haccepts rest
  -- no digit is a sign
  have hunsigned : plainText (((e.digits.map SourceChar.valid ++ rest).take 1).filter
      fun c => c.char = '+' || c.char = '-') = [] := by
    cases he : e.digits with
    | nil => exact absurd he hdigits.ne_nil
    | cons d digits =>
      have hd := (digits_cons_iff.1 (he ▸ hdigits)).1
      have hplus : d ≠ '+' := by
        rintro rfl
        exact absurd hd (by decide)
      have hminus : d ≠ '-' := by
        rintro rfl
        exact absurd hd (by decide)
      simp [plainText, hplus, hminus, SourceChar.char]
  have htext : e.text.map SourceChar.valid ++ rest =
      .valid e.marker :: (e.sign.map .valid ++ (e.digits.map .valid ++ rest)) := by
    simp [text]
  rw [htext, read?, if_pos hmarker]
  rcases hsign with h | h | h
  · simp only [h, List.map_nil, List.nil_append, hunsigned, List.length_nil, List.drop_zero, hrun]
  · simp [h, plainText, SourceChar.char, hrun]
  · simp [h, plainText, SourceChar.char, hrun]

end Exponent

namespace Number

/-! ## The parts that are read -/

theorem of_readFraction?_eq_some {radix : Radix} {source : List SourceChar} {digits : List Char}
    (h : readFraction? radix source = some digits) :
    ∃ rest, source = .valid '.' :: rest ∧ digits = radix.run rest := by
  unfold readFraction? at h
  split at h
  · next rest =>
    cases h
    exact ⟨rest, rfl, rfl⟩
  · cases h

section
variable (floats : Bool) (source : List SourceChar)

theorem read_radix : (read floats source).radix = (Radix.ofLead source).1 := by
  cases floats <;> rfl

theorem read_lead : (read floats source).lead = (Radix.ofLead source).2 := by
  cases floats <;> rfl

theorem read_whole :
    (read floats source).whole =
      (Radix.ofLead source).1.run (source.drop (Radix.ofLead source).2.length) := by
  cases floats <;> rfl

theorem read_fraction :
    (read true source).fraction =
      readFraction? (read true source).radix
        (source.drop ((read true source).lead ++ (read true source).whole).length) := by
  simp [read, text, mantissa, fractionText]

theorem read_exponent :
    (read true source).exponent =
      Exponent.read? (source.drop (read true source).mantissa.length) := by
  simp [read, text, mantissa, fractionText]

end

theorem read?_of_exponent_read {source : List SourceChar} {e : Exponent}
    (he : (read true source).exponent = some e) :
    Exponent.read? (source.drop (read true source).mantissa.length) = some e := by
  rw [← read_exponent, he]

/-- The digits that are read last before an exponent are a run that ends there. -/
theorem not_accepts_marker_read {source : List SourceChar} {e : Exponent}
    (he : (read true source).exponent = some e) :
    (read true source).radix.accepts e.marker = false := by
  obtain ⟨-, -, -, rest, hrest⟩ := Exponent.of_read?_eq_some (read?_of_exponent_read he)
  have hfraction := read_fraction source
  unfold mantissa fractionText at hrest
  split at hrest
  · next digits hsome =>
    rw [hsome] at hfraction
    obtain ⟨more, hmore, rfl⟩ := of_readFraction?_eq_some hfraction.symm
    rw [List.length_append, ← List.drop_drop, hmore, List.length_cons,
      List.drop_succ_cons] at hrest
    have hends := Radix.not_accepts_of_drop_run hrest
    exact hends
  · rw [List.append_nil, List.length_append, ← List.drop_drop, read_lead, read_whole] at hrest
    rw [read_radix]
    have hends := Radix.not_accepts_of_drop_run hrest
    exact hends

/-- A number that is read is composed of parts that fit together. -/
theorem composed_read (floats : Bool) (source : List SourceChar) :
    (read floats source).Composed := by
  have hlead : (read floats source).radix.LeadFits (read floats source).lead
      (read floats source).whole := by
    rw [read_radix, read_lead, read_whole]
    exact Radix.leadFits_ofLead source
  have hwhole : ∀ c ∈ (read floats source).whole,
      (read floats source).radix.accepts c = true := by
    rw [read_radix, read_whole]
    exact fun c hc => Radix.accepts_of_mem_run hc
  cases floats with
  | false =>
    exact {
      lead := hlead
      whole := hwhole
      fraction := fun _ h => by cases h
      isMarker := fun _ h => by cases h
      marker := fun _ h => by cases h
      sign := fun _ h => by cases h
      digits := fun _ h => by cases h }
  | true =>
    have hparts (e : Exponent) (he : (read true source).exponent = some e) :=
      Exponent.of_read?_eq_some (read?_of_exponent_read he)
    exact {
      lead := hlead
      whole := hwhole
      fraction := by
        intro digits h
        rw [read_fraction] at h
        obtain ⟨rest, -, rfl⟩ := of_readFraction?_eq_some h
        exact fun c hc => Radix.accepts_of_mem_run hc
      isMarker := fun e he => (hparts e he).1
      marker := fun e he => not_accepts_marker_read he
      sign := fun e he => (hparts e he).2.1
      digits := fun e he => (hparts e he).2.2.1 }

/-! ## Reading what is written -/

section
variable {m : Number}

theorem WellFormed.text_ne_nil (hwell : m.WellFormed) (hcomposed : m.Composed) : m.text ≠ [] := by
  rw [text_eq]
  rcases hcomposed.lead.cases with ⟨hradix, -⟩ | ⟨-, hlead, -⟩ | ⟨letter, -, hlead, -⟩
  · rcases ne_nil_of_hasDigits hwell.hasDigits with hzero | hwhole | ⟨digits, hfraction, -⟩
    · rw [hradix] at hzero
      cases hzero
    · simp [hwhole]
    · simp [tail, fractionText, hfraction]
  · simp [hlead]
  · simp [hlead]

/-- The lead of a well-written number is read as such, but for a zero alone: what comes behind that
may be a letter that asks for a radix. -/
theorem ofLead_text_append (hcomposed : m.Composed) (hwell : m.WellFormed) (hzero : m.text ≠ ['0'])
    (rest : List SourceChar) : Radix.ofLead (m.text.map .valid ++ rest) = (m.radix, m.lead) := by
  have htext := hwell.text_ne_nil hcomposed
  rw [text_eq] at htext hzero ⊢
  rcases hcomposed.lead.cases with ⟨hradix, hlead, -⟩ | ⟨hradix, hlead, -⟩ |
    ⟨letter, hletter, hlead, -⟩
  · rw [hlead, List.nil_append] at htext ⊢
    rw [hradix]
    have hhead := hcomposed.head_ne_zero hradix
    cases hbody : m.whole ++ m.tail with
    | nil => exact absurd hbody htext
    | cons c body =>
      have hc : c ≠ '0' := by
        rintro rfl
        exact hhead body hbody
      rw [List.map_cons, List.cons_append, Radix.ofLead]
      · intro _ _ h
        exact hc (SourceChar.valid.inj (List.cons.inj h).1)
      · intro _ h
        exact hc (SourceChar.valid.inj (List.cons.inj h).1)
  · rw [hlead] at hzero ⊢
    rw [hradix]
    cases hbody : m.whole ++ m.tail with
    | nil =>
      rw [hbody] at hzero
      exact absurd rfl hzero
    | cons c body =>
      have hletter := hcomposed.ofLetter?_eq_none hradix hbody
      simp [Radix.ofLead, hletter]
  · rw [hlead]
    simp [Radix.ofLead, hletter]

/-- A zero alone is a lead and nothing else. -/
theorem lead_of_text_eq_zero (hcomposed : m.Composed) (hzero : m.text = ['0']) :
    (m.radix, m.lead) = (.leadingZero, ['0']) := by
  rw [text_eq] at hzero
  rcases hcomposed.lead.cases with ⟨hradix, hlead, -⟩ | ⟨hradix, hlead, -⟩ | ⟨letter, -, hlead, -⟩
  · rw [hlead, List.nil_append] at hzero
    exact absurd hzero (hcomposed.head_ne_zero hradix [])
  · rw [hradix, hlead]
  · rw [hlead] at hzero
    cases hzero

/-- What `n` has more than `m` is text at the end, and without that the two are the same. -/
def Extends (n m : Number) : Prop :=
  ∃ more, n.text = m.text ++ more ∧ (more = [] → n = m)

theorem eq_none_of_tail_eq_nil {n : Number} (h : n.tail = []) :
    n.fraction = none ∧ n.exponent = none := by
  cases hfraction : n.fraction with
  | some digits =>
    simp [tail, fractionText, hfraction] at h
  | none =>
    cases hexponent : n.exponent with
    | some e => simp [tail, exponentText, hexponent, Exponent.text] at h
    | none => exact ⟨rfl, rfl⟩

variable {floats : Bool} {rest : List SourceChar}

/-- Behind its lead a number is read from the rest of its text. -/
private theorem drop_lead (hlead : Radix.ofLead (m.text.map .valid ++ rest) = (m.radix, m.lead)) :
    (read floats (m.text.map .valid ++ rest)).whole =
      m.radix.run (m.whole.map .valid ++ (m.tail.map .valid ++ rest)) := by
  have hdrop : (m.text.map SourceChar.valid ++ rest).drop m.lead.length =
      m.whole.map .valid ++ (m.tail.map .valid ++ rest) := by
    rw [text_eq, drop_map_valid_append, List.map_append, List.append_assoc]
  rw [read_whole, hlead, hdrop]

/-- An integer may go on with digits, or with a point or an exponent. -/
theorem extends_of_integer (hcomposed : m.Composed) (htail : m.tail = [])
    (hlead : Radix.ofLead (m.text.map .valid ++ rest) = (m.radix, m.lead)) :
    (read floats (m.text.map .valid ++ rest)).Extends m := by
  have hradix := read_radix floats (m.text.map .valid ++ rest)
  have hlead' := read_lead floats (m.text.map .valid ++ rest)
  have hwhole := @drop_lead _ floats _ hlead
  rw [hlead] at hradix hlead'
  rw [htail, List.map_nil, List.nil_append, Radix.run_append hcomposed.whole] at hwhole
  generalize read floats (m.text.map .valid ++ rest) = n at hradix hlead' hwhole ⊢
  refine ⟨m.radix.run rest ++ n.tail, ?_, ?_⟩
  · rw [text_eq, text_eq, htail, hlead', hwhole]
    simp
  · intro hmore
    obtain ⟨hrun, hnone⟩ := List.append_eq_nil_iff.1 hmore
    obtain ⟨hfraction, hexponent⟩ := eq_none_of_tail_eq_nil htail
    obtain ⟨hfraction', hexponent'⟩ := eq_none_of_tail_eq_nil hnone
    rw [hrun, List.append_nil] at hwhole
    cases n
    cases m
    simp_all

/-- Where a point or an exponent follows, the whole part is read as it is. -/
private theorem whole_of_tail (hcomposed : m.Composed) (htail : m.tail ≠ [])
    (hlead : Radix.ofLead (m.text.map .valid ++ rest) = (m.radix, m.lead)) :
    (read floats (m.text.map .valid ++ rest)).whole = m.whole := by
  rw [drop_lead hlead, Radix.run_append hcomposed.whole]
  cases hcons : m.tail with
  | nil => exact absurd hcons htail
  | cons c more =>
    have hrun := Radix.run_cons_of_not_accepts (c := .valid c) (hcomposed.tail_head hcons).2
    rw [List.map_cons, List.cons_append, hrun, List.append_nil]

/-- The fraction is read up to an exponent, or may go on with digits. -/
private theorem fraction_of_tail (hcomposed : m.Composed) (htail : m.tail ≠ [])
    (hlead : Radix.ofLead (m.text.map .valid ++ rest) = (m.radix, m.lead)) :
    (read true (m.text.map .valid ++ rest)).fraction =
      if m.exponent = none then m.fraction.map (· ++ m.radix.run rest) else m.fraction := by
  have hdrop : (m.text.map SourceChar.valid ++ rest).drop (m.lead ++ m.whole).length =
      m.fractionText.map .valid ++ (m.exponentText.map .valid ++ rest) := by
    rw [text_eq, ← List.append_assoc, drop_map_valid_append, tail, List.map_append,
      List.append_assoc]
  rw [read_fraction, whole_of_tail hcomposed htail hlead, read_lead, read_radix, hlead, hdrop]
  cases hfraction : m.fraction with
  | some digits =>
    have haccepts := hcomposed.fraction digits hfraction
    have hread : readFraction? m.radix
        (m.fractionText.map .valid ++ (m.exponentText.map .valid ++ rest)) =
          some (digits ++ m.radix.run (m.exponentText.map .valid ++ rest)) := by
      rw [← Radix.run_append haccepts]
      simp [fractionText, hfraction, readFraction?]
    rw [hread]
    cases hexponent : m.exponent with
    | none => simp [exponentText, hexponent]
    | some e =>
      have hrun := Radix.run_cons_of_not_accepts (c := .valid e.marker)
        (hcomposed.marker e hexponent) ((e.sign ++ e.digits).map .valid ++ rest)
      simpa [exponentText, hexponent, Exponent.text] using hrun
  | none =>
    cases hexponent : m.exponent with
    | none => exact absurd (by simp [tail, fractionText, exponentText, hfraction, hexponent]) htail
    | some e =>
      have hpoint : e.marker ≠ '.' := by
        intro hmarker
        have := hcomposed.isMarker e hexponent
        rw [hmarker] at this
        exact absurd this (by decide)
      simp [fractionText, exponentText, hfraction, hexponent, Exponent.text, readFraction?, hpoint]

/-- A float may go on with digits, or with an exponent if it has none. -/
theorem extends_of_float (hcomposed : m.Composed) (hwell : m.WellFormed) (htail : m.tail ≠ [])
    (hlead : Radix.ofLead (m.text.map .valid ++ rest) = (m.radix, m.lead)) :
    (read true (m.text.map .valid ++ rest)).Extends m := by
  have hradix := read_radix true (m.text.map .valid ++ rest)
  have hlead' := read_lead true (m.text.map .valid ++ rest)
  have hwhole := @whole_of_tail _ true _ hcomposed htail hlead
  have hfraction := fraction_of_tail hcomposed htail hlead
  have hexponent := read_exponent (m.text.map .valid ++ rest)
  rw [hlead] at hradix hlead'
  cases he : m.exponent with
  | none =>
    rw [he, if_pos rfl] at hfraction
    clear hexponent
    generalize read true (m.text.map .valid ++ rest) = n at hradix hlead' hwhole hfraction ⊢
    obtain ⟨digits, hdigits⟩ : ∃ digits, m.fraction = some digits := by
      cases hm : m.fraction with
      | none => exact absurd (by simp [tail, fractionText, exponentText, hm, he]) htail
      | some digits => exact ⟨digits, rfl⟩
    rw [hdigits, Option.map_some] at hfraction
    refine ⟨m.radix.run rest ++ n.exponentText, ?_, ?_⟩
    · rw [text_eq, text_eq, hlead', hwhole]
      simp [tail, fractionText, hfraction, hdigits, exponentText, he]
    · intro hmore
      obtain ⟨hrun, hnone⟩ := List.append_eq_nil_iff.1 hmore
      have hexponent : n.exponent = none := by
        cases hn : n.exponent with
        | none => rfl
        | some e => simp [exponentText, hn, Exponent.text] at hnone
      rw [hrun, List.append_nil] at hfraction
      cases n
      cases m
      simp_all
  | some e =>
    rw [he, if_neg (Option.some_ne_none e)] at hfraction
    have hmantissa : (read true (m.text.map .valid ++ rest)).mantissa = m.mantissa := by
      rw [mantissa, mantissa, fractionText, fractionText, hlead', hwhole, hfraction]
    have hdrop : (m.text.map SourceChar.valid ++ rest).drop m.mantissa.length =
        e.text.map .valid ++ rest := by
      rw [text, he, drop_map_valid_append]
      rfl
    rw [hmantissa, hdrop, Exponent.read?_text_append (hcomposed.isMarker e he)
      (hcomposed.sign e he) (hwell.exponent e he)] at hexponent
    generalize read true (m.text.map .valid ++ rest) = n
      at hradix hlead' hwhole hfraction hexponent hmantissa ⊢
    refine ⟨Radix.decimal.run rest, ?_, ?_⟩
    · rw [text, text, hmantissa, hexponent, he]
      simp [Exponent.text]
    · intro hrun
      rw [hrun, List.append_nil] at hexponent
      cases n
      cases m
      simp_all

/-- Where the text of a well-written number comes next, the number that is read has that text to
begin with, and if it has no more than that, it has the same parts. -/
theorem read_text_append (hcomposed : m.Composed) (hwell : m.WellFormed)
    (hfloats : floats = true ∨ m.kind = .integer) (rest : List SourceChar) :
    (read floats (m.text.map .valid ++ rest)).Extends m := by
  by_cases hlead : Radix.ofLead (m.text.map .valid ++ rest) = (m.radix, m.lead)
  · by_cases htail : m.tail = []
    · exact extends_of_integer hcomposed htail hlead
    · rcases hfloats with rfl | hkind
      · exact extends_of_float hcomposed hwell htail hlead
      · obtain ⟨hfraction, hexponent⟩ := kind_eq_integer_iff.1 hkind
        exact absurd (by simp [tail, fractionText, exponentText, hfraction, hexponent]) htail
  · -- a zero alone, which the letter behind it makes part of the mark of a radix
    have hzero : m.text = ['0'] := by
      refine Decidable.byContradiction fun hne => hlead ?_
      exact ofLead_text_append hcomposed hwell hne rest
    have hletter := (Radix.ofLead_zero_cons rest).resolve_left (by
      rw [lead_of_text_eq_zero hcomposed hzero, hzero] at hlead
      exact hlead)
    obtain ⟨letter, hletter⟩ := hletter
    have hread := read_lead floats (.valid '0' :: rest)
    rw [hletter] at hread
    have hsource : m.text.map SourceChar.valid ++ rest = .valid '0' :: rest := by
      rw [hzero]
      rfl
    rw [hsource]
    generalize read floats (.valid '0' :: rest) = n at hread ⊢
    refine ⟨letter :: (n.whole ++ n.tail), ?_, fun h => absurd h (List.cons_ne_nil _ _)⟩
    rw [text_eq, hread, hzero]
    rfl

end

end Number

end Lexis
