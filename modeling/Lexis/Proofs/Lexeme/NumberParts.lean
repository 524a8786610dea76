import Lexis.Proofs.Lexeme.NumberLiteral

/-!
# Literals taken apart

Every literal of the grammar is the text of a number whose parts fit together and that is written by
the rules, and whose kind is that of the literal (`IntLiteral.exists_number`,
`FloatLiteral.exists_number`).
-/

namespace Lexis

/-- The exponent is written as one that the letters `markers` announce. -/
structure Exponent.Written (markers : List Char) (e : Exponent) : Prop where
  marker : e.marker ∈ markers
  sign : e.sign = [] ∨ e.sign = ['+'] ∨ e.sign = ['-']
  digits : Digits Char.isDigit e.digits

theorem ExponentText.exists_exponent {markers text : List Char} (h : ExponentText markers text) :
    ∃ e : Exponent, e.text = text ∧ e.Written markers := by
  cases h with
  | intro hmarker hsign hdigits => exact ⟨⟨_, _, _⟩, rfl, hmarker, hsign, hdigits⟩

/-- What may be an exponent or nothing is the text of what may be an exponent. -/
theorem exists_exponent_of_or {markers text : List Char}
    (h : text = [] ∨ ExponentText markers text) :
    ∃ exponent : Option Exponent, (exponent.map Exponent.text).getD [] = text ∧
      ∀ e, exponent = some e → e.Written markers := by
  rcases h with rfl | h
  · exact ⟨none, rfl, fun e he => by cases he⟩
  · obtain ⟨e, rfl, hwritten⟩ := h.exists_exponent
    exact ⟨some e, rfl, fun e' he' => by cases he'; exact hwritten⟩

namespace Number

variable {radix : Radix} {lead whole : List Char} {fraction : Option (List Char)}
  {exponent : Option Exponent}

/-- The digits of a decimal float, taken apart into a leading zero and what follows it. -/
theorem leadFits_of_digits {text : List Char} (h : Digits Char.isDigit text) :
    ∃ (radix : Radix) (lead whole : List Char), lead ++ whole = text ∧
      radix.LeadFits lead whole ∧ (radix = .decimal ∨ radix = .leadingZero) ∧
      RunAllowed radix.isDigit radix.start whole ∧ (radix = .leadingZero ∨ whole ≠ []) := by
  cases text with
  | nil => exact absurd rfl h.ne_nil
  | cons d rest =>
    by_cases hd : d = '0'
    · subst hd
      exact ⟨.leadingZero, ['0'], rest, rfl, .inr (.inl ⟨rfl, rfl⟩), .inr rfl,
        (digits_cons_iff.1 h).2, .inl rfl⟩
    · have hhead : (d :: rest).head? ≠ some '0' := fun hhead => hd (Option.some.inj hhead)
      exact ⟨.decimal, [], d :: rest, rfl, .inl ⟨rfl, rfl, hhead⟩, .inl rfl, .inr h,
        .inr (List.cons_ne_nil _ _)⟩

/-- What an integer is made of. -/
theorem wellFormed_integer (hlead : radix.LeadFits lead whole)
    (hrun : RunAllowed radix.fits radix.start whole) (hdigits : radix = .leadingZero ∨ whole ≠ []) :
    (Number.mk radix lead whole none none).Composed ∧
      (Number.mk radix lead whole none none).WellFormed := by
  have hwhole : RunAllowed radix.isDigit radix.start whole :=
    hrun.mono fun _ _ hc => (Radix.fits_iff.1 hc).1
  constructor
  · exact {
      lead := hlead
      whole := fun c hc => Radix.accepts_iff.2 (hwhole.digit_or_separator c hc)
      fraction := fun _ h => by cases h
      isMarker := fun _ h => by cases h
      marker := fun _ h => by cases h
      sign := fun _ h => by cases h
      digits := fun _ h => by cases h }
  · exact {
      whole := hwhole
      fraction := fun _ h => by cases h
      exponent := fun _ h => by cases h
      hasDigits := by
        rcases hdigits with hzero | hne
        · simp [hasDigits, hzero]
        · simp only [hasDigits, Option.getD_none, List.append_nil, hwhole.any hne, Bool.or_true]
      point := fun h => by cases h
      marker := fun _ h => by cases h
      required := fun _ h => by cases h
      range := fun _ c hc => by
        rcases hrun.digit_or_separator c hc with hd | rfl
        · exact (Radix.fits_iff.1 hd).2
        · exact radix.exceeds_underscore }

/-- The letters that announce the exponent of a number of this radix. -/
def markers (radix : Radix) : List Char :=
  if radix = .hexadecimal then ['p', 'P'] else ['e', 'E']

theorem markers_eq (h : radix ≠ .hexadecimal) : markers radix = ['e', 'E'] :=
  if_neg h

/-- The letter of an exponent goes with the radix, and is not one of its digits. -/
theorem marker_of_written
    (hradix : radix = .decimal ∨ radix = .leadingZero ∨ radix = .hexadecimal) {e : Exponent}
    (h : e.Written (markers radix)) :
    Exponent.isMarker e.marker = true ∧ radix.accepts e.marker = false ∧
      (e.isBinary = true ↔ radix = .hexadecimal) := by
  have hmem := h.marker
  rw [Exponent.isBinary]
  generalize e.marker = marker at hmem ⊢
  have hletters (a b : Char) (hab : markers radix = [a, b]) : marker = a ∨ marker = b := by
    simpa [hab] using hmem
  rcases hradix with rfl | rfl | rfl
  · rcases hletters 'e' 'E' rfl with rfl | rfl <;> decide
  · rcases hletters 'e' 'E' rfl with rfl | rfl <;> decide
  · rcases hletters 'p' 'P' rfl with rfl | rfl <;> decide

/-- What a float is made of. -/
theorem wellFormed_float (hlead : radix.LeadFits lead whole)
    (hradix : radix = .decimal ∨ radix = .leadingZero ∨ radix = .hexadecimal)
    (hrun : RunAllowed radix.isDigit radix.start whole)
    (hfraction : ∀ digits, fraction = some digits → digits = [] ∨ Digits radix.isDigit digits)
    (hexponent : ∀ e, exponent = some e → e.Written (markers radix))
    (hrequired : radix = .hexadecimal → exponent ≠ none)
    (hkind : fraction ≠ none ∨ exponent ≠ none)
    (hdigits : radix = .leadingZero ∨ whole ≠ [] ∨
      ∃ digits, fraction = some digits ∧ digits ≠ []) :
    (Number.mk radix lead whole fraction exponent).Composed ∧
      (Number.mk radix lead whole fraction exponent).WellFormed := by
  have hpoint : radix ≠ .octal ∧ radix ≠ .binary := by
    rcases hradix with rfl | rfl | rfl <;> decide
  have hmarker (e : Exponent) (he : exponent = some e) := marker_of_written hradix (hexponent e he)
  constructor
  · exact {
      lead := hlead
      whole := fun c hc => Radix.accepts_iff.2 (hrun.digit_or_separator c hc)
      fraction := fun digits h c hc => by
        rcases hfraction digits h with rfl | hd
        · cases hc
        · exact Radix.accepts_iff.2 (hd.digit_or_separator c hc)
      isMarker := fun e he => (hmarker e he).1
      marker := fun e he => (hmarker e he).2.1
      sign := fun e he => (hexponent e he).sign
      digits := fun e he c hc =>
        Radix.accepts_iff.2 ((hexponent e he).digits.digit_or_separator c hc) }
  · exact {
      whole := hrun
      fraction := hfraction
      exponent := fun e he => (hexponent e he).digits
      hasDigits := by
        rcases hdigits with hzero | hne | ⟨digits, hsome, hne⟩
        · simp [hasDigits, hzero]
        · simp only [hasDigits, List.any_append, hrun.any hne, Bool.true_or, Bool.or_true]
        · have hany := ((hfraction digits hsome).resolve_left hne).any
          simp only [hasDigits, hsome, Option.getD_some, List.any_append, hany, Bool.or_true]
      point := fun _ => hpoint
      marker := fun e he => by
        have hiff := (hmarker e he).2.2
        split
        · next hbinary => exact hiff.1 hbinary
        · next hbinary =>
          rcases hradix with h | h | h
          · exact .inl h
          · exact .inr h
          · exact absurd (hiff.2 h) hbinary
      required := fun hnone _ hhex => hrequired hhex hnone
      range := fun hinteger => by
        obtain ⟨hnone, hnone'⟩ := kind_eq_integer_iff.1 hinteger
        rcases hkind with h | h
        · exact absurd hnone h
        · exact absurd hnone' h }

end Number

open Number

/-! ## Integers -/

/-- A letter that asks for a radix, with digits of that radix behind it. -/
private theorem exists_number_marked {letter : Char} {radix : Radix} {rest : List Char}
    (hletter : Radix.ofLetter? letter = some radix) (hrest : MoreDigits radix.fits rest) :
    ∃ n : Number, n.text = '0' :: letter :: rest ∧ n.Composed ∧ n.WellFormed ∧
      n.kind = .integer := by
  have hstart : radix.start = .digit := if_neg (Radix.ne_of_ofLetter? hletter).1
  have hrun : RunAllowed radix.fits radix.start rest := by
    rw [hstart]
    exact .inr hrest
  obtain ⟨hcomposed, hwell⟩ :=
    wellFormed_integer (.inr (.inr ⟨letter, hletter, rfl⟩)) hrun (.inr hrest.ne_nil)
  exact ⟨_, by simp [text_eq, tail, fractionText, exponentText], hcomposed, hwell, rfl⟩

theorem IntLiteral.exists_number {text : List Char} (h : IntLiteral text) :
    ∃ n : Number, n.text = text ∧ n.Composed ∧ n.WellFormed ∧ n.kind = .integer := by
  cases h with
  | zero =>
    obtain ⟨hcomposed, hwell⟩ := @wellFormed_integer .leadingZero ['0'] []
      (.inr (.inl ⟨rfl, rfl⟩)) (.inl rfl) (.inl rfl)
    exact ⟨_, rfl, hcomposed, hwell, rfl⟩
  | @decimal d rest hd hzero hrest =>
    have hhead : (d :: rest).head? ≠ some '0' := fun h => hzero (Option.some.inj h)
    have hdigits : Digits Radix.decimal.fits (d :: rest) := by
      rw [Radix.fits_decimal]
      exact digits_cons_iff.2 ⟨hd, hrest⟩
    obtain ⟨hcomposed, hwell⟩ := @wellFormed_integer .decimal [] (d :: rest)
      (.inl ⟨rfl, rfl, hhead⟩) (.inr hdigits) (.inr (List.cons_ne_nil _ _))
    exact ⟨_, by simp [text_eq, tail, fractionText, exponentText], hcomposed, hwell, rfl⟩
  | @leadingZero rest hrest =>
    have hmore : MoreDigits Radix.leadingZero.fits rest := by
      rw [Radix.fits_octal rfl]
      exact hrest
    obtain ⟨hcomposed, hwell⟩ := @wellFormed_integer .leadingZero ['0'] rest
      (.inr (.inl ⟨rfl, rfl⟩)) (.inr hmore) (.inl rfl)
    exact ⟨_, by simp [text_eq, tail, fractionText, exponentText], hcomposed, hwell, rfl⟩
  | octal hletter hrest =>
    rw [← @Radix.fits_octal .octal rfl] at hrest
    rcases hletter with rfl | rfl
    · exact exists_number_marked rfl hrest
    · exact exists_number_marked rfl hrest
  | binary hletter hrest =>
    rw [← Radix.fits_binary] at hrest
    rcases hletter with rfl | rfl
    · exact exists_number_marked rfl hrest
    · exact exists_number_marked rfl hrest
  | hexadecimal hletter hrest =>
    rw [← Radix.fits_hexadecimal] at hrest
    rcases hletter with rfl | rfl
    · exact exists_number_marked rfl hrest
    · exact exists_number_marked rfl hrest

/-! ## Floats -/

/-- The text of a number in its parts. -/
private theorem text_mk (radix : Radix) (lead whole : List Char) (fraction : Option (List Char))
    (exponent : Option Exponent) :
    (Number.mk radix lead whole fraction exponent).text =
      lead ++ whole ++ (match fraction with | some digits => '.' :: digits | none => []) ++
        (exponent.map Exponent.text).getD [] := rfl

/-- The digits of a hexadecimal float, with an exponent behind them. -/
private theorem exists_number_hexadecimal {letter : Char} {mantissa : List Char} {e : Exponent}
    (hletter : letter = 'x' ∨ letter = 'X') (hmantissa : HexMantissa mantissa)
    (he : e.Written (markers .hexadecimal)) :
    ∃ n : Number, n.text = '0' :: letter :: (mantissa ++ e.text) ∧ n.Composed ∧ n.WellFormed ∧
      n.kind = .float := by
  have hradix : Radix.ofLetter? letter = some .hexadecimal := by
    rcases hletter with rfl | rfl
    · rfl
    · rfl
  have hexists {whole : List Char} {fraction : Option (List Char)}
      (hwhole : whole = [] ∨ MoreDigits Text.isHexDigit whole)
      (hfraction : ∀ digits, fraction = some digits →
        digits = [] ∨ Digits Text.isHexDigit digits)
      (hdigits : whole ≠ [] ∨ ∃ digits, fraction = some digits ∧ digits ≠ []) :
      (Number.mk .hexadecimal ['0', letter] whole fraction (some e)).Composed ∧
        (Number.mk .hexadecimal ['0', letter] whole fraction (some e)).WellFormed :=
    wellFormed_float (.inr (.inr ⟨letter, hradix, rfl⟩)) (.inr (.inr rfl)) hwhole hfraction
      (fun _ h => by cases h; exact he) (fun _ => Option.some_ne_none _)
      (.inr (Option.some_ne_none _)) (.inr hdigits)
  cases hmantissa with
  | @point whole fraction hwhole hfraction =>
    obtain ⟨hcomposed, hwell⟩ := @hexists whole (some fraction) (.inr hwhole)
      (fun _ h => by cases h; exact hfraction) (.inl hwhole.ne_nil)
    exact ⟨_, by rw [text_mk]; simp, hcomposed, hwell, rfl⟩
  | whole hwhole =>
    obtain ⟨hcomposed, hwell⟩ := @hexists mantissa none (.inr hwhole)
      (fun _ h => by cases h) (.inl hwhole.ne_nil)
    exact ⟨_, by rw [text_mk]; simp, hcomposed, hwell, rfl⟩
  | @fraction fraction hfraction =>
    obtain ⟨hcomposed, hwell⟩ := @hexists [] (some fraction) (.inl rfl)
      (fun _ h => by cases h; exact .inr hfraction) (.inr ⟨fraction, rfl, hfraction.ne_nil⟩)
    exact ⟨_, by rw [text_mk]; simp, hcomposed, hwell, rfl⟩

theorem FloatLiteral.exists_number {text : List Char} (h : FloatLiteral text) :
    ∃ n : Number, n.text = text ∧ n.Composed ∧ n.WellFormed ∧ n.kind = .float := by
  cases h with
  | @point whole fraction exponent hwhole hfraction hexponent =>
    obtain ⟨radix, lead, rest, rfl, hlead, hradix, hrun, hdigits⟩ := leadFits_of_digits hwhole
    obtain ⟨e?, rfl, hwritten⟩ := exists_exponent_of_or hexponent
    have hhex : radix ≠ .hexadecimal := by rcases hradix with rfl | rfl <;> decide
    have hsome : ∀ digits, some fraction = some digits →
        digits = [] ∨ Digits radix.isDigit digits := by
      rintro digits ⟨⟩
      rw [Radix.isDigit_eq hradix]
      exact hfraction
    rw [← markers_eq hhex] at hwritten
    obtain ⟨hcomposed, hwell⟩ := wellFormed_float hlead (or_assoc.1 (.inl hradix)) hrun hsome
      hwritten (fun h => absurd h hhex) (.inl (Option.some_ne_none _)) (or_assoc.1 (.inl hdigits))
    exact ⟨_, text_mk .., hcomposed, hwell, rfl⟩
  | @exponent whole exponent hwhole hexponent =>
    obtain ⟨radix, lead, rest, rfl, hlead, hradix, hrun, hdigits⟩ := leadFits_of_digits hwhole
    obtain ⟨e, rfl, hwritten⟩ := hexponent.exists_exponent
    have hhex : radix ≠ .hexadecimal := by rcases hradix with rfl | rfl <;> decide
    rw [← markers_eq hhex] at hwritten
    obtain ⟨hcomposed, hwell⟩ := @wellFormed_float _ _ _ none (some e) hlead
      (or_assoc.1 (.inl hradix)) hrun (fun _ h => by cases h) (fun _ h => by cases h; exact hwritten)
      (fun h => absurd h hhex) (.inr (Option.some_ne_none _)) (or_assoc.1 (.inl hdigits))
    exact ⟨_, by rw [text_mk]; simp, hcomposed, hwell, rfl⟩
  | @fraction fraction exponent hfraction hexponent =>
    obtain ⟨e?, rfl, hwritten⟩ := exists_exponent_of_or hexponent
    obtain ⟨hcomposed, hwell⟩ := @wellFormed_float .decimal [] [] (some fraction) e?
      (.inl ⟨rfl, rfl, by simp⟩) (.inl rfl) (.inl rfl) (fun _ h => by cases h; exact .inr hfraction)
      hwritten (fun h => by cases h) (.inl (Option.some_ne_none _))
      (.inr (.inr ⟨fraction, rfl, hfraction.ne_nil⟩))
    exact ⟨_, by rw [text_mk]; simp, hcomposed, hwell, rfl⟩
  | hexadecimal hletter hmantissa hexponent =>
    obtain ⟨e, rfl, hwritten⟩ := hexponent.exists_exponent
    exact exists_number_hexadecimal hletter hmantissa hwritten

end Lexis
