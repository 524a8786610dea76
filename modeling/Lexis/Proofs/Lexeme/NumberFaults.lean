import Lexis.Proofs.Lexeme.NumberGrammar

/-!
# Numbers without faults

`Number.Composed` says what the parts of a number are like that has been read: which characters they
have, and where each of them ends. Of the numbers that are composed that way, those that are written
by the rules (`Number.WellFormed`) are the ones without a fault (`Number.faults_eq_nil_iff`).
-/

namespace Lexis

namespace Radix

/-- Whether `c` is a digit of this radix that is not too large. -/
def fits (radix : Radix) (c : Char) : Bool :=
  radix.isDigit c && !radix.exceeds c

@[simp]
theorem isDigit_underscore (radix : Radix) : radix.isDigit '_' = false := by
  cases radix <;> decide

@[simp]
theorem isDigit_point (radix : Radix) : radix.isDigit '.' = false := by
  cases radix <;> decide

theorem exceeds_underscore (radix : Radix) : radix.exceeds '_' = false := by
  cases radix <;> decide

theorem accepts_iff {radix : Radix} {c : Char} :
    radix.accepts c = true ↔ radix.isDigit c = true ∨ c = '_' := by
  rw [accepts, Bool.or_eq_true, beq_iff_eq]

theorem isDigit_eq_false_of_accepts {radix : Radix} {c : Char} (h : radix.accepts c = false) :
    c ≠ '_' ∧ radix.isDigit c = false := by
  have hnot : ¬ (radix.isDigit c = true ∨ c = '_') := by
    rw [← accepts_iff, h]
    exact Bool.false_ne_true
  rw [not_or] at hnot
  exact ⟨hnot.2, Bool.eq_false_iff.2 hnot.1⟩

/-- Letters that ask for a radix are no digits, but for the letter of binary numbers, and announce
no exponent. -/
theorem mem_of_ofLetter? {c : Char} {radix : Radix} (h : ofLetter? c = some radix) :
    radix = hexadecimal ∧ (c = 'x' ∨ c = 'X') ∨ radix = octal ∧ (c = 'o' ∨ c = 'O') ∨
      radix = binary ∧ (c = 'b' ∨ c = 'B') := by
  unfold ofLetter? at h
  split at h
  · next hc =>
    cases h
    exact .inl ⟨rfl, hc⟩
  split at h
  · next hc =>
    cases h
    exact .inr (.inl ⟨rfl, hc⟩)
  split at h
  · next hc =>
    cases h
    exact .inr (.inr ⟨rfl, hc⟩)
  · cases h

/-- The radixes that no letter asks for. -/
theorem ne_of_ofLetter? {c : Char} {radix : Radix} (h : ofLetter? c = some radix) :
    radix ≠ decimal ∧ radix ≠ leadingZero := by
  rcases mem_of_ofLetter? h with ⟨rfl, -⟩ | ⟨rfl, -⟩ | ⟨rfl, -⟩
  · decide
  · decide
  · decide

/-- What the digits of a number of this radix go on from: a digit or the mark of a radix, if there
is a lead. -/
def start (radix : Radix) : SeparatorContext :=
  if radix = decimal then .other else .digit

/-- A number of this radix is announced by `lead`, behind which `whole` comes. -/
def LeadFits (radix : Radix) (lead whole : List Char) : Prop :=
  radix = decimal ∧ lead = [] ∧ whole.head? ≠ some '0' ∨
    radix = leadingZero ∧ lead = ['0'] ∨
      ∃ letter, ofLetter? letter = some radix ∧ lead = ['0', letter]

theorem LeadFits.cases {radix : Radix} {lead whole : List Char} (h : LeadFits radix lead whole) :
    radix = decimal ∧ lead = [] ∧ radix.start = .other ∧ whole.head? ≠ some '0' ∨
      radix = leadingZero ∧ lead = ['0'] ∧ radix.start = .digit ∨
      ∃ letter, ofLetter? letter = some radix ∧ lead = ['0', letter] ∧ radix.start = .digit := by
  rcases h with ⟨rfl, hlead, hhead⟩ | ⟨rfl, hlead⟩ | ⟨letter, hletter, hlead⟩
  · exact .inl ⟨rfl, hlead, rfl, hhead⟩
  · exact .inr (.inl ⟨rfl, hlead, rfl⟩)
  · exact .inr (.inr ⟨letter, hletter, hlead, if_neg (ne_of_ofLetter? hletter).1⟩)

/-- The mark of hexadecimal numbers. -/
theorem LeadFits.of_hexadecimal {lead whole : List Char} (h : LeadFits hexadecimal lead whole) :
    ∃ letter, (letter = 'x' ∨ letter = 'X') ∧ lead = ['0', letter] := by
  rcases h with ⟨habsurd, -⟩ | ⟨habsurd, -⟩ | ⟨letter, hletter, hlead⟩
  · cases habsurd
  · cases habsurd
  · rcases mem_of_ofLetter? hletter with ⟨-, hx⟩ | ⟨habsurd, -⟩ | ⟨habsurd, -⟩
    · exact ⟨letter, hx, hlead⟩
    · cases habsurd
    · cases habsurd

/-- No letter asks for a radix that may stand behind a leading zero otherwise. -/
theorem ofLetter?_eq_none {c : Char}
    (h : decimal.accepts c = true ∨ c = '.' ∨ Exponent.isMarker c = true) :
    ofLetter? c = none := by
  cases hletter : ofLetter? c with
  | none => rfl
  | some radix =>
    rcases mem_of_ofLetter? hletter with ⟨-, rfl | rfl⟩ | ⟨-, rfl | rfl⟩ | ⟨-, rfl | rfl⟩ <;>
      exact absurd h (by decide)

end Radix

namespace Number

variable {n : Number}

/-- The exponent and what announces it, or nothing. -/
def exponentText (n : Number) : List Char :=
  (n.exponent.map Exponent.text).getD []

/-- What follows the digits before the radix point. -/
def tail (n : Number) : List Char :=
  n.fractionText ++ n.exponentText

theorem text_eq (n : Number) : n.text = n.lead ++ (n.whole ++ n.tail) := by
  simp [text, mantissa, tail, exponentText]

/-- The parts of a number fit together as they do where the number has been read. -/
structure Composed (n : Number) : Prop where
  lead : n.radix.LeadFits n.lead n.whole
  whole : ∀ c ∈ n.whole, n.radix.accepts c = true
  fraction : ∀ digits, n.fraction = some digits → ∀ c ∈ digits, n.radix.accepts c = true
  isMarker : ∀ e, n.exponent = some e → Exponent.isMarker e.marker = true
  /-- An exponent starts where the digits before it end. -/
  marker : ∀ e, n.exponent = some e → n.radix.accepts e.marker = false
  sign : ∀ e, n.exponent = some e → e.sign = [] ∨ e.sign = ['+'] ∨ e.sign = ['-']
  digits : ∀ e, n.exponent = some e → ∀ c ∈ e.digits, Radix.decimal.accepts c = true

/-- The number is written by the rules. -/
structure WellFormed (n : Number) : Prop where
  whole : RunAllowed n.radix.isDigit n.radix.start n.whole
  fraction : ∀ digits, n.fraction = some digits → digits = [] ∨ Digits n.radix.isDigit digits
  exponent : ∀ e, n.exponent = some e → Digits Char.isDigit e.digits
  hasDigits : n.hasDigits = true
  point : n.fraction.isSome = true → n.radix ≠ .octal ∧ n.radix ≠ .binary
  /-- A binary exponent goes with hexadecimal digits, any other with decimal ones. -/
  marker : ∀ e, n.exponent = some e →
    if e.isBinary then n.radix = .hexadecimal else n.radix = .decimal ∨ n.radix = .leadingZero
  required : n.exponent = none → n.fraction.isSome = true → n.radix ≠ .hexadecimal
  range : n.kind = .integer → ∀ c ∈ n.whole, n.radix.exceeds c = false

/-! ## One fault at a time -/

theorem pointFaults_eq_nil_iff :
    n.pointFaults = [] ↔ (n.fraction.isSome = true → n.radix ≠ .octal ∧ n.radix ≠ .binary) := by
  unfold pointFaults
  split
  · next h =>
    simp only [Bool.and_eq_true, Bool.or_eq_true, decide_eq_true_eq] at h
    rcases h.2 with hradix | hradix
    · simp [h.1, hradix]
    · simp [h.1, hradix]
  · next h =>
    simp only [Bool.and_eq_true, Bool.or_eq_true, decide_eq_true_eq, not_and, not_or] at h
    simpa using h

theorem digitFaults_eq_nil_iff : n.digitFaults = [] ↔ n.hasDigits = true := by
  unfold digitFaults
  split
  · next h => simp [h]
  · next h => simp [h]

theorem exponentFaults_eq_nil_iff :
    n.exponentFaults = [] ↔
      (∀ e, n.exponent = some e → e.digits.any Char.isDigit = true ∧
        if e.isBinary then n.radix = .hexadecimal
        else n.radix = .decimal ∨ n.radix = .leadingZero) ∧
      (n.exponent = none → n.fraction.isSome = true → n.radix ≠ .hexadecimal) := by
  unfold exponentFaults
  cases n.exponent with
  | none =>
    have hmissing : ((if n.radix = .hexadecimal && n.fraction.isSome then
        [(n.mantissa.length, Fault.hexMantissaRequiresExponent)] else []) = []) ↔
        (n.fraction.isSome = true → n.radix ≠ .hexadecimal) := by
      split
      · next h =>
        simp only [Bool.and_eq_true, decide_eq_true_eq] at h
        simp [h]
      · next h =>
        simp only [Bool.and_eq_true, decide_eq_true_eq, not_and] at h
        simpa [imp_not_comm] using h
    simpa using hmissing
  | some e =>
    have hmarker : ((if e.isBinary then
          if n.radix = .hexadecimal then []
          else [(n.mantissa.length, Fault.exponentRequiresHex e.marker)]
        else if n.radix = .decimal || n.radix = .leadingZero then []
        else [(n.mantissa.length, Fault.exponentRequiresDecimal e.marker)]) = []) ↔
        (if e.isBinary then n.radix = .hexadecimal
          else n.radix = .decimal ∨ n.radix = .leadingZero) := by
      split
      · split
        · next h => simp [h]
        · next h => simp [h]
      · split
        · next h => simpa using h
        · next h => simpa using h
    have hdigits : ((if e.digits.any Char.isDigit then []
        else [(n.text.length, Fault.exponentNoDigits)]) = []) ↔
        e.digits.any Char.isDigit = true := by
      split
      · next h => simp [h]
      · next h => simp [h]
    dsimp only
    rw [List.append_eq_nil_iff, hmarker, hdigits]
    simp [and_comm]

theorem rangeFaults_eq_nil_iff :
    n.rangeFaults = [] ↔
      (n.kind = .integer → ∀ c ∈ n.whole, n.radix.exceeds c = false) := by
  unfold rangeFaults
  split
  · next hkind =>
    split
    · next c index hfound =>
      have hmem : c ∈ n.whole := List.fst_mem_of_mem_zipIdx (List.mem_of_find?_eq_some hfound)
      have hexceeds : n.radix.exceeds c = true := by simpa using List.find?_some hfound
      constructor
      · intro h
        cases h
      · intro h
        rw [h hkind c hmem] at hexceeds
        cases hexceeds
    · next hfound =>
      rw [List.find?_eq_none] at hfound
      refine ⟨fun _ _ c hc => ?_, fun _ => rfl⟩
      obtain ⟨index, hindex, rfl⟩ := List.getElem_of_mem hc
      have hmem : (n.whole[index], index) ∈ n.whole.zipIdx := by
        rw [List.mem_zipIdx_iff_getElem?]
        exact List.getElem?_eq_getElem hindex
      simpa using hfound _ hmem
  · next hkind => simp [hkind]

/-! ## Underscores -/

theorem misplacedSeparator?_of_ofLetter? {text : List Char}
    (h : ∀ letter rest, text = '0' :: letter :: rest → Radix.ofLetter? letter = none) :
    misplacedSeparator? text = findMisplaced? Char.isDigit .other 0 text := by
  unfold misplacedSeparator?
  split
  · next letter rest =>
    rw [h letter rest rfl]
  · rfl

/-- What the text of a number is made of. -/
theorem Composed.mem_text (h : n.Composed) {c : Char} (hc : c ∈ n.text) :
    c ∈ ['0', 'x', 'X', 'o', 'O', 'b', 'B'] ∨ c ∈ n.whole ∨ c ∈ n.tail := by
  rw [text_eq, List.mem_append, List.mem_append] at hc
  refine hc.imp_left fun hlead => ?_
  rcases h.lead.cases with ⟨-, h, -⟩ | ⟨-, h, -⟩ | ⟨letter, hletter, h, -⟩
  · rw [h] at hlead
    cases hlead
  · rw [h, List.mem_singleton] at hlead
    simp [hlead]
  · have hmem := Radix.mem_of_ofLetter? hletter
    rw [h] at hlead
    grind

/-- No character of a number needs to be reported. -/
theorem Composed.ne_nul (h : n.Composed) {c : Char} (hc : c ∈ n.text) : c ≠ '\x00' := by
  have haccepts : ∀ radix : Radix, radix.accepts '\x00' = false := by
    intro radix
    cases radix <;> decide
  rintro rfl
  rcases h.mem_text hc with hlead | hwhole | htail
  · exact absurd hlead (by decide)
  · have := h.whole _ hwhole
    rw [haccepts] at this
    cases this
  · rw [tail, List.mem_append] at htail
    rcases htail with hfraction | hexponent
    · unfold fractionText at hfraction
      split at hfraction
      · next digits hsome =>
        have := h.fraction digits hsome _ ((List.mem_cons.1 hfraction).resolve_left (by decide))
        rw [haccepts] at this
        cases this
      · cases hfraction
    · unfold exponentText at hexponent
      cases he : n.exponent with
      | none =>
        rw [he] at hexponent
        cases hexponent
      | some e =>
        rw [he] at hexponent
        have hmarker := h.isMarker e he
        have hdigits := h.digits e he
        simp only [Option.map_some, Option.getD_some, Exponent.text, List.mem_append,
          List.mem_cons] at hexponent
        rcases hexponent with (hm | hs) | hd
        · rw [← hm] at hmarker
          exact absurd hmarker (by decide)
        · rcases h.sign e he with hsign | hsign | hsign <;> rw [hsign] at hs <;>
            exact absurd hs (by decide)
        · have := hdigits _ hd
          rw [haccepts] at this
          cases this

/-- What follows the whole part is no letter that asks for a radix, and does not go on its digits.
-/
theorem Composed.tail_head (h : n.Composed) {c : Char} {rest : List Char}
    (htail : n.tail = c :: rest) :
    (c = '.' ∨ Exponent.isMarker c = true) ∧ n.radix.accepts c = false := by
  unfold tail fractionText exponentText at htail
  cases hfraction : n.fraction with
  | some digits =>
    rw [hfraction] at htail
    cases htail
    refine ⟨.inl rfl, ?_⟩
    rw [Radix.accepts, Radix.isDigit_point]
    rfl
  | none =>
    rw [hfraction] at htail
    cases hexponent : n.exponent with
    | none =>
      rw [hexponent] at htail
      cases htail
    | some e =>
      rw [hexponent] at htail
      cases htail
      exact ⟨.inr (h.isMarker e hexponent), h.marker e hexponent⟩

theorem Composed.interrupts_tail (h : n.Composed) : Interrupts n.radix.isDigit n.tail := by
  intro c hc
  obtain ⟨rest, hrest⟩ := List.head?_eq_some_iff.1 hc
  exact Radix.isDigit_eq_false_of_accepts (h.tail_head hrest).2

/-- A decimal number does not start with a zero. -/
theorem Composed.head_ne_zero (h : n.Composed) (hradix : n.radix = .decimal) (rest : List Char) :
    n.whole ++ n.tail ≠ '0' :: rest := by
  intro htext
  rcases h.lead.cases with ⟨-, -, -, hhead⟩ | ⟨hother, -⟩ | ⟨letter, hletter, -⟩
  · cases hwhole : n.whole with
    | nil =>
      rw [hwhole, List.nil_append] at htext
      exact absurd (h.tail_head htext).1 (by decide)
    | cons c whole =>
      rw [hwhole, List.cons_append, List.cons.injEq] at htext
      rw [hwhole, htext.1] at hhead
      exact hhead rfl
  · rw [hradix] at hother
    cases hother
  · exact (Radix.ne_of_ofLetter? hletter).1 hradix

/-- Behind a leading zero comes no letter that asks for a radix. -/
theorem Composed.ofLetter?_eq_none (h : n.Composed) (hradix : n.radix = .leadingZero)
    {letter : Char} {rest : List Char} (htext : n.whole ++ n.tail = letter :: rest) :
    Radix.ofLetter? letter = none := by
  apply Radix.ofLetter?_eq_none
  cases hwhole : n.whole with
  | nil =>
    rw [hwhole, List.nil_append] at htext
    exact .inr (h.tail_head htext).1
  | cons c whole =>
    rw [hwhole, List.cons_append, List.cons.injEq] at htext
    have haccepts := h.whole c (by rw [hwhole]; exact List.mem_cons_self)
    rw [hradix] at haccepts
    rw [← htext.1]
    exact .inl haccepts

/-- The underscores of a number are looked at from behind its lead on. -/
theorem misplacedSeparator?_text (h : n.Composed) :
    misplacedSeparator? n.text = none ↔
      Separated n.radix.isDigit n.radix.start (n.whole ++ n.tail) := by
  rw [text_eq]
  rcases h.lead.cases with ⟨hradix, hlead, hstart, hhead⟩ | ⟨hradix, hlead, hstart⟩ |
    ⟨letter, hletter, hlead, hstart⟩
  · have hdigit : n.radix.isDigit = Char.isDigit := by
      rw [hradix]
      rfl
    rw [hlead, hstart, hdigit, List.nil_append, misplacedSeparator?_of_ofLetter?,
      findMisplaced?_eq_none_iff]
    intro letter rest htext
    exact absurd htext (h.head_ne_zero hradix _)
  · have hdigit : n.radix.isDigit = Char.isDigit := by
      rw [hradix]
      rfl
    have hwalk : Separated Char.isDigit .other ('0' :: (n.whole ++ n.tail)) ↔
        Separated Char.isDigit .digit (n.whole ++ n.tail) := by
      rw [Separated, if_neg (by decide), if_pos (by decide)]
    rw [hlead, hstart, hdigit, List.singleton_append, misplacedSeparator?_of_ofLetter?,
      findMisplaced?_eq_none_iff, hwalk]
    intro letter rest htext
    exact h.ofLetter?_eq_none hradix (List.cons.inj htext).2
  · rw [hlead, hstart]
    simp only [List.cons_append, List.nil_append, misplacedSeparator?, hletter]
    exact findMisplaced?_eq_none_iff

/-- The sign of an exponent has no underscores in it. -/
theorem separated_sign {isDigit : Char → Bool} {sign : List Char}
    (hsign : sign = [] ∨ sign = ['+'] ∨ sign = ['-']) (hplus : isDigit '+' = false)
    (hminus : isDigit '-' = false) (text : List Char) :
    Separated isDigit .other (sign ++ text) ↔ Separated isDigit .other text := by
  rcases hsign with rfl | rfl | rfl
  · rfl
  · simp [Separated, hplus]
  · simp [Separated, hminus]

/-- The underscores of an exponent are in their places where those of its digits are. -/
theorem separated_exponentText (h : n.Composed) :
    Separated n.radix.isDigit .other n.exponentText ↔
      ∀ e, n.exponent = some e → e.digits = [] ∨ Digits n.radix.isDigit e.digits := by
  unfold exponentText
  cases hexponent : n.exponent with
  | none => simp [Separated]
  | some e =>
    obtain ⟨hunderscore, hdigit⟩ := Radix.isDigit_eq_false_of_accepts (h.marker e hexponent)
    have hplus : n.radix.isDigit '+' = false := by cases n.radix <;> decide
    have hminus : n.radix.isDigit '-' = false := by cases n.radix <;> decide
    have hrun : ∀ c ∈ e.digits, n.radix.isDigit c = true ∨ c = '_' := by
      intro c hc
      refine (Radix.accepts_iff.1 (h.digits e hexponent c hc)).imp_left fun hdecimal => ?_
      -- a decimal digit is one of any radix
      have hd : c.isDigit = true := hdecimal
      rw [Radix.isDigit]
      split
      · simp [Text.isHexDigit, hd]
      · exact hd
    have happend := @separated_append _ .other _ [] n.radix.isDigit_underscore hrun
      (fun c hc => by cases hc)
    rw [List.append_nil] at happend
    have hsigned := separated_sign (h.sign e hexponent) hplus hminus e.digits
    simp [Exponent.text, Separated, hunderscore, hdigit, hsigned, happend, RunAllowed]

/-- The underscores of a fraction are in their places where those of its digits are. -/
theorem separated_tail (h : n.Composed) :
    Separated n.radix.isDigit .other n.tail ↔
      (∀ digits, n.fraction = some digits → digits = [] ∨ Digits n.radix.isDigit digits) ∧
        Separated n.radix.isDigit .other n.exponentText := by
  unfold tail fractionText
  cases hfraction : n.fraction with
  | none => simp
  | some digits =>
    have hinterrupts : Interrupts n.radix.isDigit n.exponentText := by
      intro c hc
      unfold exponentText at hc
      cases hexponent : n.exponent with
      | none =>
        rw [hexponent] at hc
        cases hc
      | some e =>
        rw [hexponent] at hc
        cases hc
        exact Radix.isDigit_eq_false_of_accepts (h.marker e hexponent)
    have hrun : ∀ c ∈ digits, n.radix.isDigit c = true ∨ c = '_' := fun c hc =>
      Radix.accepts_iff.1 (h.fraction digits hfraction c hc)
    have happend := @separated_append _ .other _ _ n.radix.isDigit_underscore hrun hinterrupts
    simp [Separated, happend, RunAllowed]

theorem separatorFaults_eq_nil_iff (h : n.Composed) :
    n.separatorFaults = [] ↔
      RunAllowed n.radix.isDigit n.radix.start n.whole ∧
      (∀ digits, n.fraction = some digits → digits = [] ∨ Digits n.radix.isDigit digits) ∧
      ∀ e, n.exponent = some e → e.digits = [] ∨ Digits n.radix.isDigit e.digits := by
  have hnone : n.separatorFaults = [] ↔ misplacedSeparator? n.text = none := by
    unfold separatorFaults
    split
    · next hfound => simp [hfound]
    · next hfound => simp [hfound]
  have hrun : ∀ c ∈ n.whole, n.radix.isDigit c = true ∨ c = '_' := fun c hc =>
    Radix.accepts_iff.1 (h.whole c hc)
  rw [hnone, misplacedSeparator?_text h,
    separated_append n.radix.isDigit_underscore hrun h.interrupts_tail, separated_tail h,
    separated_exponentText h]

/-! ## All faults -/

/-- An exponent whose digits are separated as they have to be, and that has one, has decimal
digits. -/
theorem digits_exponent_iff (h : n.Composed) {e : Exponent} (he : n.exponent = some e) :
    Digits Char.isDigit e.digits ↔
      (e.digits = [] ∨ Digits n.radix.isDigit e.digits) ∧ e.digits.any Char.isDigit = true := by
  constructor
  · intro hdigits
    refine ⟨.inr (hdigits.mono fun c _ hd => ?_), hdigits.any⟩
    rw [Radix.isDigit]
    split
    · simp [Text.isHexDigit, hd]
    · exact hd
  · rintro ⟨hnil | hdigits, hany⟩
    · rw [hnil] at hany
      cases hany
    · refine hdigits.mono fun c hc hd => ?_
      have hdecimal := Radix.accepts_iff.1 (h.digits e he c hc)
      refine hdecimal.resolve_right ?_
      rintro rfl
      rw [Radix.isDigit_underscore] at hd
      cases hd

/-- A number has no faults where it is written by the rules. -/
theorem faults_eq_nil_iff (h : n.Composed) : n.faults = [] ↔ n.WellFormed := by
  simp only [faults, List.append_eq_nil_iff, pointFaults_eq_nil_iff, digitFaults_eq_nil_iff,
    exponentFaults_eq_nil_iff, rangeFaults_eq_nil_iff, separatorFaults_eq_nil_iff h]
  constructor
  · rintro ⟨⟨⟨⟨hpoint, hdigits⟩, hexponent, hrequired⟩, hrange⟩, hwhole, hfraction, hseparated⟩
    exact {
      whole := hwhole
      fraction := hfraction
      exponent := fun e he =>
        (digits_exponent_iff h he).2 ⟨hseparated e he, (hexponent e he).1⟩
      hasDigits := hdigits
      point := hpoint
      marker := fun e he => (hexponent e he).2
      required := hrequired
      range := hrange }
  · intro hwell
    refine ⟨⟨⟨⟨hwell.point, hwell.hasDigits⟩, ?_, hwell.required⟩, hwell.range⟩, hwell.whole,
      hwell.fraction, ?_⟩
    · intro e he
      exact ⟨((digits_exponent_iff h he).1 (hwell.exponent e he)).2, hwell.marker e he⟩
    · intro e he
      exact ((digits_exponent_iff h he).1 (hwell.exponent e he)).1

end Number

end Lexis
