import Lexis.Proofs.Lexeme.NumberFaults

/-!
# Numbers as literals

The texts of the numbers that are written by the rules are the literals of the grammar: such a
number is an integer or a float literal as its kind tells (`Number.intLiteral_text`,
`Number.floatLiteral_text`), and every literal is the text of such a number
(`IntLiteral.exists_number`, `FloatLiteral.exists_number`).
-/

namespace Lexis

/-! ## Digits of a radix -/

namespace Radix

theorem fits_iff {radix : Radix} {c : Char} :
    radix.fits c = true ↔ radix.isDigit c = true ∧ radix.exceeds c = false := by
  rw [fits, Bool.and_eq_true, Bool.not_eq_true']

theorem fits_hexadecimal : hexadecimal.fits = Text.isHexDigit := by
  funext c
  simp [fits, isDigit, exceeds]

/-- A digit fits where it is less than the base. -/
theorem fits_eq {radix : Radix} (h : radix ≠ hexadecimal) (c : Char) :
    radix.fits c = (c.isDigit && decide (Text.digitValue c < radix.base)) := by
  rw [fits, isDigit, exceeds, if_neg h]
  by_cases hd : c.isDigit = true
  · have hlt : (!decide (radix.base ≤ Text.digitValue c)) =
        decide (Text.digitValue c < radix.base) := by
      rw [← decide_not, decide_eq_decide]
      exact Nat.not_le
    simp only [hd, h, ne_eq, not_false_eq_true, decide_true, Bool.true_and]
    exact hlt
  · simp [hd]

theorem digitValue_lt_iff {c : Char} (h : c.isDigit = true) (base : Nat) :
    Text.digitValue c < base ↔ c.toNat < '0'.toNat + base := by
  have hlow := (Char.isDigit_iff_toNat.1 h).1
  rw [Text.digitValue, if_pos h]
  omega

theorem fits_decimal : decimal.fits = Char.isDigit := by
  funext c
  rw [fits_eq (by decide)]
  by_cases hd : c.isDigit = true
  · have hlt : c.toNat < '0'.toNat + decimal.base :=
      Nat.lt_succ_of_le (Char.isDigit_iff_toNat.1 hd).2
    simp [hd, (digitValue_lt_iff hd _).2 hlt]
  · simp [hd]

/-- With decimal digits are read what no letter announces. -/
theorem isDigit_eq {radix : Radix} (h : radix = decimal ∨ radix = leadingZero) :
    radix.isDigit = Char.isDigit := by
  rcases h with rfl | rfl
  · rfl
  · rfl

theorem fits_octal {radix : Radix} (h : radix.base = 8) : radix.fits = Text.isOctalDigit := by
  have hne : radix ≠ hexadecimal := by
    rintro rfl
    cases h
  funext c
  rw [fits_eq hne, h, Text.isOctalDigit, Bool.eq_iff_iff]
  simp only [Bool.and_eq_true, decide_eq_true_eq]
  constructor
  · rintro ⟨hd, hlt⟩
    exact ⟨(Char.isDigit_iff_toNat.1 hd).1, Nat.le_of_lt_succ ((digitValue_lt_iff hd 8).1 hlt)⟩
  · rintro ⟨hlow, hhigh⟩
    have hle : c.toNat ≤ '7'.toNat := hhigh
    have hd : c.isDigit = true := Char.isDigit_iff_toNat.2 ⟨hlow, Nat.le_trans hle (by decide)⟩
    exact ⟨hd, (digitValue_lt_iff hd 8).2 (Nat.lt_succ_of_le hle)⟩

theorem fits_binary : binary.fits = isBinaryDigit := by
  funext c
  rw [fits_eq (by decide), isBinaryDigit, Bool.eq_iff_iff]
  simp only [Bool.and_eq_true, decide_eq_true_eq, Bool.or_eq_true, beq_iff_eq]
  constructor
  · rintro ⟨hd, hlt⟩
    have hlow := (Char.isDigit_iff_toNat.1 hd).1
    have hhigh : c.toNat < '0'.toNat + 2 := (digitValue_lt_iff hd _).1 hlt
    have hone : '1'.toNat = '0'.toNat + 1 := rfl
    have hcases : c.toNat = '0'.toNat ∨ c.toNat = '1'.toNat := by omega
    exact hcases.imp Char.toNat_inj.1 Char.toNat_inj.1
  · rintro (rfl | rfl)
    · decide
    · decide

end Radix

/-! ## The text of a number that is written by the rules -/

namespace Number

variable {n : Number}

theorem kind_eq_integer_iff : n.kind = .integer ↔ n.fraction = none ∧ n.exponent = none := by
  unfold kind
  cases n.fraction with
  | some digits => simp
  | none =>
    cases n.exponent with
    | some e => simp
    | none => simp

theorem kind_eq_float_iff : n.kind = .float ↔ ¬ n.kind = .integer := by
  unfold kind
  split
  · simp
  · simp

/-- A number with digits has a leading zero, or digits on one of the sides of the point. -/
theorem ne_nil_of_hasDigits (h : n.hasDigits = true) :
    n.radix = .leadingZero ∨ n.whole ≠ [] ∨ ∃ digits, n.fraction = some digits ∧ digits ≠ [] := by
  rw [hasDigits, Bool.or_eq_true, decide_eq_true_eq] at h
  refine h.imp_right fun hany => ?_
  by_cases hwhole : n.whole = []
  · right
    cases hfraction : n.fraction with
    | none =>
      rw [hwhole, hfraction] at hany
      cases hany
    | some digits =>
      refine ⟨digits, rfl, ?_⟩
      rintro rfl
      rw [hwhole, hfraction] at hany
      cases hany
  · exact .inl hwhole

/-- Where a well-written number has no digits before the point, it has some behind it. -/
theorem WellFormed.exists_fraction (hwell : n.WellFormed) (hradix : n.radix ≠ .leadingZero)
    (hnil : n.whole = []) :
    ∃ digits, n.fraction = some digits ∧ Digits n.radix.isDigit digits := by
  obtain ⟨digits, hfraction, hne⟩ :=
    ((ne_nil_of_hasDigits hwell.hasDigits).resolve_left hradix).resolve_left fun h => h hnil
  exact ⟨digits, hfraction, (hwell.fraction digits hfraction).resolve_left hne⟩

/-- A well-written number of integer kind is an integer literal. -/
theorem intLiteral_text (hcomposed : n.Composed) (hwell : n.WellFormed)
    (hkind : n.kind = .integer) : IntLiteral n.text := by
  obtain ⟨hfraction, hexponent⟩ := kind_eq_integer_iff.1 hkind
  have htext : n.text = n.lead ++ n.whole := by
    simp [text_eq, tail, fractionText, exponentText, hfraction, hexponent]
  have hrun : RunAllowed n.radix.fits n.radix.start n.whole :=
    hwell.whole.mono fun c hc hd => Radix.fits_iff.2 ⟨hd, hwell.range hkind c hc⟩
  have hdigits : n.radix = .leadingZero ∨ n.whole ≠ [] := by
    refine (ne_nil_of_hasDigits hwell.hasDigits).imp_right fun h => h.resolve_right ?_
    rintro ⟨digits, hsome, -⟩
    rw [hfraction] at hsome
    cases hsome
  rw [htext]
  rcases hcomposed.lead.cases with ⟨hradix, hlead, hstart, hhead⟩ | ⟨hradix, hlead, hstart⟩ |
    ⟨letter, hletter, hlead, hstart⟩
  · rw [hstart, hradix, Radix.fits_decimal] at hrun
    have hnonempty := hdigits.resolve_left (by rw [hradix]; decide)
    cases hwhole : n.whole with
    | nil => exact absurd hwhole hnonempty
    | cons d rest =>
      rw [hwhole] at hrun hhead
      obtain ⟨hd, hrest⟩ := digits_cons_iff.1 (hrun.resolve_left (List.cons_ne_nil _ _))
      rw [hlead]
      exact .decimal hd (fun hzero => hhead (congrArg some hzero)) hrest
  · rw [hstart, hradix, Radix.fits_octal rfl] at hrun
    rw [hlead]
    rcases hrun with hnil | hmore
    · rw [hnil]
      exact .zero
    · exact .leadingZero hmore
  · have hnonempty := hdigits.resolve_left (Radix.ne_of_ofLetter? hletter).2
    rw [hstart] at hrun
    have hmore := hrun.resolve_left hnonempty
    rw [hlead]
    rcases Radix.mem_of_ofLetter? hletter with ⟨hradix, hc⟩ | ⟨hradix, hc⟩ | ⟨hradix, hc⟩
    · rw [hradix, Radix.fits_hexadecimal] at hmore
      exact .hexadecimal hc hmore
    · rw [hradix, Radix.fits_octal rfl] at hmore
      exact .octal hc hmore
    · rw [hradix, Radix.fits_binary] at hmore
      exact .binary hc hmore

/-- The exponent of a well-written number, if it has one. -/
theorem exponentText_eq (hcomposed : n.Composed) (hwell : n.WellFormed) {markers : List Char}
    (hmarkers : ∀ e, n.exponent = some e → e.marker ∈ markers) :
    (n.exponent = none ∧ n.exponentText = []) ∨ ExponentText markers n.exponentText := by
  unfold exponentText
  cases hexponent : n.exponent with
  | none => exact .inl ⟨rfl, rfl⟩
  | some e =>
    exact .inr (.intro (hmarkers e hexponent) (hcomposed.sign e hexponent)
      (hwell.exponent e hexponent))

/-- The digits before the point of a decimal float, leading zero and all. -/
theorem digits_lead_whole (hcomposed : n.Composed) (hwell : n.WellFormed)
    (hradix : n.radix = .decimal ∨ n.radix = .leadingZero) :
    (n.radix = .decimal ∧ n.whole = [] ∧ n.lead ++ n.whole = []) ∨
      Digits Char.isDigit (n.lead ++ n.whole) := by
  have hdigit := Radix.isDigit_eq hradix
  have hrun := hwell.whole
  rw [hdigit] at hrun
  rcases hcomposed.lead.cases with ⟨hdecimal, hlead, hstart, -⟩ | ⟨-, hlead, hstart⟩ |
    ⟨letter, hletter, -⟩
  · rw [hstart] at hrun
    rw [hlead, List.nil_append]
    exact hrun.imp_left fun hnil => ⟨hdecimal, hnil, hnil⟩
  · rw [hstart] at hrun
    rw [hlead]
    exact .inr (digits_cons_iff.2 ⟨by decide, hrun⟩)
  · obtain ⟨hdecimal, hzero⟩ := Radix.ne_of_ofLetter? hletter
    exact absurd hradix (not_or.2 ⟨hdecimal, hzero⟩)

theorem WellFormed.marker_mem_of_decimal (hwell : n.WellFormed) (hcomposed : n.Composed)
    (hradix : n.radix ≠ .hexadecimal) {e : Exponent} (he : n.exponent = some e) :
    e.marker ∈ ['e', 'E'] := by
  have hmarker := hcomposed.isMarker e he
  have hbinary : e.isBinary = false := by
    have hgoes := hwell.marker e he
    split at hgoes
    · exact absurd hgoes hradix
    · next hbinary => exact Bool.eq_false_iff.2 hbinary
  simp only [Exponent.isBinary, Bool.or_eq_false_iff, decide_eq_false_iff_not] at hbinary
  simpa [Exponent.isMarker, hbinary] using hmarker

theorem WellFormed.marker_mem_of_hexadecimal (hwell : n.WellFormed)
    (hradix : n.radix = .hexadecimal) {e : Exponent} (he : n.exponent = some e) :
    e.marker ∈ ['p', 'P'] := by
  have hbinary : e.isBinary = true := by
    have hgoes := hwell.marker e he
    split at hgoes
    · next hbinary => exact hbinary
    · rw [hradix] at hgoes
      exact absurd hgoes (by decide)
  simpa [Exponent.isBinary] using hbinary

/-- A well-written number with decimal digits is a float literal where it has a point or an
exponent. -/
theorem floatLiteral_text_decimal (hcomposed : n.Composed) (hwell : n.WellFormed)
    (hradix : n.radix = .decimal ∨ n.radix = .leadingZero)
    (hkind : n.fraction ≠ none ∨ n.exponent ≠ none) : FloatLiteral n.text := by
  have hhex : n.radix ≠ .hexadecimal := by
    rcases hradix with h | h <;> rw [h] <;> decide
  have hexponent := exponentText_eq hcomposed hwell fun e he =>
    hwell.marker_mem_of_decimal hcomposed hhex he
  have hwhole := digits_lead_whole hcomposed hwell hradix
  have htext : n.text = (n.lead ++ n.whole) ++ n.fractionText ++ n.exponentText := by
    simp [text_eq, tail]
  rw [htext]
  cases hfraction : n.fraction with
  | none =>
    have hsome := hkind.resolve_left fun h => h hfraction
    have hexp := hexponent.resolve_left fun h => hsome h.1
    have hdigits := hwhole.resolve_left (by
      rintro ⟨hdecimal, hnil, -⟩
      obtain ⟨digits, h, -⟩ := hwell.exists_fraction (by rw [hdecimal]; decide) hnil
      rw [hfraction] at h
      cases h)
    simp only [fractionText, hfraction, List.append_nil]
    exact .exponent hdigits hexp
  | some digits =>
    have hexp := hexponent.imp_left And.right
    simp only [fractionText, hfraction]
    rcases hwhole with ⟨hdecimal, hnil, hempty⟩ | hwhole
    · obtain ⟨digits', h, hsome⟩ := hwell.exists_fraction (by rw [hdecimal]; decide) hnil
      rw [hfraction] at h
      cases h
      rw [Radix.isDigit_eq hradix] at hsome
      rw [hempty]
      exact .fraction hsome hexp
    · have hdigits := hwell.fraction digits hfraction
      rw [Radix.isDigit_eq hradix] at hdigits
      exact .point hwhole hdigits hexp

/-- The digits of a well-written hexadecimal number, with the point among them. -/
theorem hexMantissa_of_wellFormed (hwell : n.WellFormed) (hradix : n.radix = .hexadecimal) :
    HexMantissa (n.whole ++ n.fractionText) := by
  have hdigit : n.radix.isDigit = Text.isHexDigit := by
    rw [hradix]
    rfl
  have hstart : n.radix.start = .digit := by
    rw [hradix]
    rfl
  have hzero : n.radix ≠ .leadingZero := by
    rw [hradix]
    decide
  have hwhole := hwell.whole
  rw [hdigit, hstart] at hwhole
  rcases hwhole with hnil | hmore
  · obtain ⟨digits, hfraction, hsome⟩ := hwell.exists_fraction hzero hnil
    rw [hdigit] at hsome
    simp only [fractionText, hfraction, hnil, List.nil_append]
    exact .fraction hsome
  · cases hfraction : n.fraction with
    | none =>
      simp only [fractionText, hfraction, List.append_nil]
      exact .whole hmore
    | some digits =>
      have hdigits := hwell.fraction digits hfraction
      rw [hdigit] at hdigits
      simp only [fractionText, hfraction]
      exact .point hmore hdigits

/-- A well-written hexadecimal number with an exponent is a float literal. -/
theorem floatLiteral_text_hexadecimal (hcomposed : n.Composed) (hwell : n.WellFormed)
    (hradix : n.radix = .hexadecimal) (hkind : n.fraction ≠ none ∨ n.exponent ≠ none) :
    FloatLiteral n.text := by
  -- a fraction alone does not make a float of a hexadecimal number
  have hsome : n.exponent ≠ none := by
    intro hnone
    have hfraction := hkind.resolve_right fun h => h hnone
    exact hwell.required hnone (Option.isSome_iff_ne_none.2 hfraction) hradix
  have hexponent := exponentText_eq hcomposed hwell fun e he =>
    hwell.marker_mem_of_hexadecimal hradix he
  have hexp := hexponent.resolve_left fun h => hsome h.1
  obtain ⟨letter, hx, hlead⟩ := Radix.LeadFits.of_hexadecimal (hradix ▸ hcomposed.lead)
  have htext : n.text = '0' :: letter :: (n.whole ++ n.fractionText) ++ n.exponentText := by
    simp [text_eq, tail, hlead]
  rw [htext]
  exact .hexadecimal hx (hexMantissa_of_wellFormed hwell hradix) hexp

/-- A well-written number of float kind is a float literal. -/
theorem floatLiteral_text (hcomposed : n.Composed) (hwell : n.WellFormed)
    (hkind : n.kind = .float) : FloatLiteral n.text := by
  have hsome : n.fraction ≠ none ∨ n.exponent ≠ none := by
    rw [kind_eq_float_iff, kind_eq_integer_iff] at hkind
    exact Decidable.not_and_iff_or_not.1 hkind
  -- octal and binary numbers have neither a point nor an exponent
  have hpoint : n.radix ≠ .octal ∧ n.radix ≠ .binary := by
    by_cases hfraction : n.fraction = none
    · obtain ⟨e, he⟩ := Option.ne_none_iff_exists'.1 (hsome.resolve_left fun h => h hfraction)
      have hmarker := hwell.marker e he
      split at hmarker
      · rw [hmarker]
        decide
      · rcases hmarker with h | h
        · rw [h]
          decide
        · rw [h]
          decide
    · exact hwell.point (Option.isSome_iff_ne_none.2 hfraction)
  cases hradix : n.radix with
  | decimal => exact floatLiteral_text_decimal hcomposed hwell (.inl hradix) hsome
  | leadingZero => exact floatLiteral_text_decimal hcomposed hwell (.inr hradix) hsome
  | hexadecimal => exact floatLiteral_text_hexadecimal hcomposed hwell hradix hsome
  | octal => exact absurd hradix hpoint.1
  | binary => exact absurd hradix hpoint.2

end Number

end Lexis
