import Lexis.Proofs.Lexeme.Form
import Lexis.Proofs.Lexeme.Gap
import Lexis.Proofs.Lexeme.NumberReading

/-!
# Where a lexeme ends

A lexeme ends where the next character does not belong to it any more, or behind the mark that ends
it. So where something follows it, what stands behind that has no say in it: more text at the end
leaves the lexeme as it is (`Lexeme.read_append`). Only a lexeme that takes up all there is may go
on in text that is put behind it.
-/

namespace Lexis

/-! ## Numbers -/

/-- A run that stops in a source stops there too if the source goes on. -/
theorem takeWhile_append_of_lt {holds : SourceChar → Bool} {source : List SourceChar}
    (h : (source.takeWhile holds).length < source.length) (more : List SourceChar) :
    (source ++ more).takeWhile holds = source.takeWhile holds := by
  rw [List.takeWhile_append, if_neg (Nat.ne_of_lt h)]

namespace Radix

variable {source : List SourceChar}

theorem run_append_of_lt {radix : Radix} (h : (radix.run source).length < source.length)
    (more : List SourceChar) : radix.run (source ++ more) = radix.run source := by
  rw [run, length_plainText] at h
  rw [run, takeWhile_append_of_lt h, run]

/-- A lead that is not all there is stays a lead. -/
theorem ofLead_append (h : (ofLead source).2.length < source.length) (more : List SourceChar) :
    ofLead (source ++ more) = ofLead source := by
  cases source with
  | nil => cases h
  | cons c rest =>
    by_cases hc : c = .valid '0'
    · subst hc
      cases rest with
      | nil => exact absurd h (Nat.lt_irrefl _)
      | cons d rest =>
        -- the letter that asks for a radix is looked at, and nothing behind it
        cases d with
        | valid letter => rfl
        | replaced bytes => rfl
    · have hother (source : List SourceChar) : ofLead (c :: source) = (decimal, []) := by
        unfold ofLead
        split
        · next heq =>
          injection heq with hhead
          exact absurd hhead hc
        · next heq =>
          injection heq with hhead
          exact absurd hhead hc
        · rfl
      rw [List.cons_append, hother, hother]

end Radix

namespace Exponent

variable {source : List SourceChar}

/-- An exponent that is not all there is stays as it is, and where there is none, none comes up. -/
theorem read?_append (hne : source ≠ [])
    (h : ∀ e, read? source = some e → e.text.length < source.length) (more : List SourceChar) :
    read? (source ++ more) = read? source := by
  cases source with
  | nil => exact absurd rfl hne
  | cons c rest =>
    cases c with
    | replaced bytes => rfl
    | valid marker =>
      by_cases hmarker : isMarker marker = true
      · rw [read?, if_pos hmarker] at h
        rw [List.cons_append, read?, read?, if_pos hmarker, if_pos hmarker]
        have hlength := h _ rfl
        cases rest with
        | nil =>
          -- a marker alone is all there is
          exact absurd hlength (by simp [text])
        | cons d rest =>
          have hsign : ((d :: rest) ++ more).take 1 = (d :: rest).take 1 := rfl
          rw [hsign]
          dsimp only at hlength ⊢
          generalize plainText (((d :: rest).take 1).filter
            fun c => c.char = '+' || c.char = '-') = sign at hlength ⊢
          simp only [text, List.length_append, List.length_cons] at hlength
          rw [List.drop_append_of_le_length (by rw [List.length_cons]; omega),
            Radix.run_append_of_lt (by rw [List.length_drop, List.length_cons]; omega)]
      · rw [List.cons_append, read?, read?, if_neg hmarker, if_neg hmarker]

end Exponent

namespace Number

variable {source : List SourceChar}

theorem readFraction?_append {radix : Radix} (hne : source ≠ [])
    (h : ∀ digits, readFraction? radix source = some digits → digits.length + 1 < source.length)
    (more : List SourceChar) : readFraction? radix (source ++ more) = readFraction? radix source := by
  cases source with
  | nil => exact absurd rfl hne
  | cons c rest =>
    by_cases hc : c = .valid '.'
    · subst hc
      have hlength := h _ rfl
      rw [List.length_cons] at hlength
      show some (radix.run (rest ++ more)) = some (radix.run rest)
      rw [Radix.run_append_of_lt (by omega)]
    · have hother (source : List SourceChar) : readFraction? radix (c :: source) = none := by
        unfold readFraction?
        split
        · next heq =>
          injection heq with hhead
          exact absurd hhead hc
        · rfl
      rw [List.cons_append, hother, hother]

section
variable {floats : Bool} (h : (read floats source).text.length < source.length)
  (more : List SourceChar)
include h

theorem ofLead_append_of_text : Radix.ofLead (source ++ more) = Radix.ofLead source := by
  refine Radix.ofLead_append ?_ more
  rw [text_eq, List.length_append] at h
  rw [← read_lead floats]
  omega

theorem whole_append : (read floats (source ++ more)).whole = (read floats source).whole := by
  have hlead := ofLead_append_of_text h more
  rw [text_eq, List.length_append, List.length_append, read_lead, read_whole] at h
  rw [read_whole, read_whole, hlead, List.drop_append_of_le_length (by omega),
    Radix.run_append_of_lt (by rw [List.length_drop]; omega)]

end

section
variable (h : (read true source).text.length < source.length) (more : List SourceChar)
include h

theorem fraction_append :
    (read true (source ++ more)).fraction = (read true source).fraction := by
  have hlead := ofLead_append_of_text h more
  have hwhole := whole_append h more
  have hfraction := read_fraction source
  rw [text_eq, tail, List.length_append, List.length_append, List.length_append] at h
  rw [read_fraction, hwhole, read_radix, read_lead, hlead, ← read_lead true, ← read_radix true,
    List.drop_append_of_le_length (by rw [List.length_append]; omega), hfraction]
  refine readFraction?_append ?_ ?_ more
  · rw [ne_eq, List.drop_eq_nil_iff, List.length_append]
    omega
  · intro digits hdigits
    rw [← hfraction] at hdigits
    rw [fractionText, hdigits, List.length_cons] at h
    rw [List.length_drop, List.length_append]
    omega

theorem mantissa_append : (read true (source ++ more)).mantissa = (read true source).mantissa := by
  rw [mantissa, mantissa, fractionText, fractionText, fraction_append h more, whole_append h more,
    read_lead, read_lead, ofLead_append_of_text h more]

theorem exponent_append :
    (read true (source ++ more)).exponent = (read true source).exponent := by
  have hmantissa := mantissa_append h more
  have hexponent := read_exponent source
  rw [text, List.length_append] at h
  rw [read_exponent, hmantissa, List.drop_append_of_le_length (by omega), hexponent]
  refine Exponent.read?_append ?_ ?_ more
  · rw [ne_eq, List.drop_eq_nil_iff]
    omega
  · intro e he
    rw [← hexponent] at he
    rw [he] at h
    rw [List.length_drop]
    simp only [Option.map_some, Option.getD_some] at h
    omega

end

/-- A number that is not all there is stays as it is. -/
theorem read_append {floats : Bool} (h : (read floats source).text.length < source.length)
    (more : List SourceChar) : read floats (source ++ more) = read floats source := by
  have hradix : (read floats (source ++ more)).radix = (read floats source).radix := by
    rw [read_radix, read_radix, ofLead_append_of_text h more]
  have hlead : (read floats (source ++ more)).lead = (read floats source).lead := by
    rw [read_lead, read_lead, ofLead_append_of_text h more]
  have hwhole := whole_append h more
  have hfraction : (read floats (source ++ more)).fraction = (read floats source).fraction := by
    cases floats with
    | false => rfl
    | true => exact fraction_append h more
  have hexponent : (read floats (source ++ more)).exponent = (read floats source).exponent := by
    cases floats with
    | false => rfl
    | true => exact exponent_append h more
  generalize read floats (source ++ more) = n at *
  generalize read floats source = m at *
  cases n
  cases m
  simp_all

end Number

/-! ## Quoted literals -/

theorem Escape.digits_append {isDigit : Char → Bool} {width : Nat} {source : List SourceChar}
    (h : (digits isDigit width source).length < source.length) (more : List SourceChar) :
    digits isDigit width (source ++ more) = digits isDigit width source := by
  rw [digits, digits, List.take_append]
  by_cases hwidth : width ≤ source.length
  · rw [Nat.sub_eq_zero_of_le hwidth, List.take_zero, List.append_nil]
  · rw [digits, List.take_of_length_le (by omega)] at h
    rw [List.take_of_length_le (by omega), takeWhile_append_of_lt h]

/-- An escape that does not run up to the end stays as it is. -/
theorem Escape.read_append {quote : Char} {source : List SourceChar}
    (h : (read quote source).body.length < source.length) (more : List SourceChar) :
    read quote (source ++ more) = read quote source := by
  cases source with
  | nil => cases h
  | cons c rest =>
    rw [List.cons_append]
    unfold read at h ⊢
    dsimp only at h ⊢
    split
    · rfl
    next hquote =>
    rw [if_neg hquote] at h
    split
    · next hoctal =>
      rw [if_pos hoctal] at h
      rw [← List.cons_append, digits_append h]
    next hoctal =>
    rw [if_neg hoctal] at h
    split
    · next width hwidth =>
      rw [hwidth] at h
      rw [digits_append (Nat.lt_of_succ_lt_succ h)]
    · rfl

namespace Quoted

variable {quote : Char} {source : List SourceChar}

/-- Items that do not run up to the end stay as they are. -/
theorem readItems_append (h : (itemChars quote (readItems quote source)).length < source.length)
    (more : List SourceChar) : readItems quote (source ++ more) = readItems quote source := by
  fun_induction readItems quote source with
  | case1 => cases h
  | case2 c rest hquote => rw [List.cons_append, readItems, if_pos hquote]
  | case3 c rest hquote hend => rw [List.cons_append, readItems, if_neg hquote, if_pos hend]
  | case4 c rest hquote hend hslash e items closed hread ih =>
    rw [itemChars_cons, List.length_append, QuotedItem.chars, List.length_cons,
      List.length_cons] at h
    rw [hread] at ih
    have hescape : Escape.read quote (rest ++ more) = e :=
      Escape.read_append (show e.body.length < rest.length by omega) more
    have hitems := ih (by rw [List.length_drop]; omega)
    rw [List.cons_append, readItems, if_neg hquote, if_neg hend, if_pos hslash, hescape]
    dsimp only
    rw [List.drop_append_of_le_length (by omega), hitems]
  | case5 c rest hquote hend hslash items closed hread ih =>
    rw [itemChars_cons, List.length_append, QuotedItem.chars, List.length_cons,
      List.length_cons] at h
    rw [hread] at ih
    have hitems := ih (by omega)
    rw [List.cons_append, readItems, if_neg hquote, if_neg hend, if_neg hslash, hitems]

/-- A quoted literal that is not all there is stays as it is. -/
theorem read_append (h : (read quote source).chars.length ≤ source.length)
    (more : List SourceChar) : read quote (source ++ more) = read quote source := by
  have hlength : (read quote source).chars.length =
      (itemChars quote (readItems quote source)).length + 1 := rfl
  have hitems := @readItems_append quote source (by omega) more
  rw [read, hitems, read]

end Quoted

/-! ## Text up to a mark -/

namespace Enclosed

variable {mark : List Char} {source : List SourceChar}

/-- Text up to a mark that was found stays as it is. -/
theorem read_append_of_closed (hmark : mark ≠ []) (hvalid : SourceChar.replacement ∉ mark)
    (hclosed : (read mark source).closed = true) (more : List SourceChar) :
    read mark (source ++ more) = read mark source := by
  obtain ⟨rest, hrest⟩ := charsThrough_read_isPrefix hmark hvalid source
  have hagain := read_again hmark hclosed (rest ++ more)
  rwa [← List.append_assoc, hrest] at hagain

/-- Where no mark is found, the text is all there is. -/
theorem closed_of_length_lt (hmark : mark ≠ [])
    (h : (read mark source).body.length < source.length) : (read mark source).closed = true := by
  by_contra hopen
  obtain ⟨hall, -⟩ := not_infix_of_not_closed hmark (Bool.not_eq_true _ ▸ hopen)
  rw [hall] at h
  exact Nat.lt_irrefl _ h

/-- Text up to a mark that is not all there is stays as it is. -/
theorem read_append (hmark : mark ≠ []) (hvalid : SourceChar.replacement ∉ mark)
    (h : (read mark source).body.length < source.length) (more : List SourceChar) :
    read mark (source ++ more) = read mark source :=
  read_append_of_closed hmark hvalid (closed_of_length_lt hmark h) more

end Enclosed

/-! ## Lexemes -/

namespace Lexeme

variable {mode : Mode} {c : SourceChar} {rest : List SourceChar}

/-- More text at the end leaves a lexeme as it is, unless the lexeme takes up all there is. -/
theorem read_append (h : (read mode c rest).chars.length ≤ rest.length) (more : List SourceChar) :
    read mode c (rest ++ more) = read mode c rest := by
  have hform := form_read mode c rest
  generalize hread : read mode c rest = l at h hform ⊢
  cases hform with
  | identifier hstart hmode =>
    rw [read_of_isIdentifierStart hstart hmode, takeWhile_append_of_lt h]
  | number hdigit hmode =>
    rw [chars, List.length_map] at h
    rw [read_of_isDigit hdigit hmode, ← List.cons_append,
      Number.read_append (Nat.lt_succ_of_le h)]
  | point hc hdigit hmode =>
    rw [chars, List.length_map] at h
    have hnext : (rest ++ more).head?.any (·.char.isDigit) = true := by
      cases rest with
      | nil => cases hdigit
      | cons d rest => exact hdigit
    have hagain := Number.read_append (Nat.lt_succ_of_le h) more
    rw [hc] at hagain ⊢
    rw [read_point, hmode, hnext, Bool.and_true, if_pos rfl, ← List.cons_append, hagain]
  | quoted quoting hc hmode =>
    rw [hc, read_mark quoting hmode]
    cases quoting with
    | double => exact congrArg string (Quoted.read_append h more)
    | single => exact congrArg char (Quoted.read_append h more)
    | backticks =>
      have hlength : (rawString (.read backtick rest)).chars.length ≤ rest.length := h
      rw [chars, List.length_cons, Enclosed.charsThrough, List.length_append] at hlength
      exact congrArg rawString
        (Enclosed.read_append backtick_ne_nil (by decide) (by omega) more)
  | lineComment hc hrest hmode =>
    rw [chars, List.length_cons] at h
    rw [hc, read_slash, if_pos hmode, Enclosed.read_append lineEnd_ne_nil (by decide) h, hrest]
    rfl
  | @blockComment rest' hc hrest hmode =>
    rw [chars, List.length_cons, List.length_cons, hrest, List.length_cons, Enclosed.charsThrough,
      List.length_append] at h
    have hagain := Enclosed.read_append blockEnd_ne_nil (by decide)
      (show (Enclosed.read blockEnd rest').body.length < rest'.length by omega) more
    rw [hc, read_slash, if_pos hmode, hrest, ← hagain]
    rfl
  | single =>
    cases rest with
    | nil => exact absurd h (by simp [chars])
    | cons d rest => exact read_single_of_head hread id fun _ hd _ => hd

end Lexeme

end Lexis
