import Lexis.Lexeme.Number

/-!
# The grammar of numbers

`IntLiteral` and `FloatLiteral` are the number literals of Go, as a grammar of texts. Their digits
may have single underscores between them (`Digits`), and one more behind the mark of a radix or a
leading zero (`MoreDigits`). Underscores are found to be in their places exactly where the stretches
of digits of a text are written by that grammar (`Number.separated_append`).
-/

namespace Lexis

/-! ## Literals -/

/-- Digits, with single underscores between them where there are any. -/
inductive Digits (isDigit : Char → Bool) : List Char → Prop
  | single {d : Char} (hd : isDigit d = true) : Digits isDigit [d]
  | digit {d : Char} {rest : List Char} (hd : isDigit d = true) (hrest : Digits isDigit rest) :
      Digits isDigit (d :: rest)
  | separated {d : Char} {rest : List Char} (hd : isDigit d = true)
      (hrest : Digits isDigit rest) : Digits isDigit (d :: '_' :: rest)

/-- Digits that go on behind a digit or the mark of a radix, where an underscore may stand first. -/
inductive MoreDigits (isDigit : Char → Bool) : List Char → Prop
  | digits {text : List Char} (h : Digits isDigit text) : MoreDigits isDigit text
  | separated {text : List Char} (h : Digits isDigit text) : MoreDigits isDigit ('_' :: text)

def isBinaryDigit (c : Char) : Bool :=
  c == '0' || c == '1'

/-- How integers are written. -/
inductive IntLiteral : List Char → Prop
  | zero : IntLiteral ['0']
  | decimal {d : Char} {rest : List Char} (hd : d.isDigit = true) (hzero : d ≠ '0')
      (hrest : rest = [] ∨ MoreDigits Char.isDigit rest) : IntLiteral (d :: rest)
  /-- A leading zero makes a number octal. -/
  | leadingZero {rest : List Char} (hrest : MoreDigits Text.isOctalDigit rest) :
      IntLiteral ('0' :: rest)
  | octal {letter : Char} {rest : List Char} (hletter : letter = 'o' ∨ letter = 'O')
      (hrest : MoreDigits Text.isOctalDigit rest) : IntLiteral ('0' :: letter :: rest)
  | binary {letter : Char} {rest : List Char} (hletter : letter = 'b' ∨ letter = 'B')
      (hrest : MoreDigits isBinaryDigit rest) : IntLiteral ('0' :: letter :: rest)
  | hexadecimal {letter : Char} {rest : List Char} (hletter : letter = 'x' ∨ letter = 'X')
      (hrest : MoreDigits Text.isHexDigit rest) : IntLiteral ('0' :: letter :: rest)

/-- How exponents are written that one of the letters `markers` announces. -/
inductive ExponentText (markers : List Char) : List Char → Prop
  | intro {marker : Char} {sign digits : List Char} (hmarker : marker ∈ markers)
      (hsign : sign = [] ∨ sign = ['+'] ∨ sign = ['-']) (hdigits : Digits Char.isDigit digits) :
      ExponentText markers (marker :: sign ++ digits)

/-- How hexadecimal floats are written between the mark of the radix and the exponent. -/
inductive HexMantissa : List Char → Prop
  | point {whole fraction : List Char} (hwhole : MoreDigits Text.isHexDigit whole)
      (hfraction : fraction = [] ∨ Digits Text.isHexDigit fraction) :
      HexMantissa (whole ++ '.' :: fraction)
  | whole {whole : List Char} (hwhole : MoreDigits Text.isHexDigit whole) : HexMantissa whole
  | fraction {fraction : List Char} (hfraction : Digits Text.isHexDigit fraction) :
      HexMantissa ('.' :: fraction)

/-- How floats are written. The digits of decimal ones may start with zeros. -/
inductive FloatLiteral : List Char → Prop
  | point {whole fraction exponent : List Char} (hwhole : Digits Char.isDigit whole)
      (hfraction : fraction = [] ∨ Digits Char.isDigit fraction)
      (hexponent : exponent = [] ∨ ExponentText ['e', 'E'] exponent) :
      FloatLiteral (whole ++ '.' :: fraction ++ exponent)
  | exponent {whole exponent : List Char} (hwhole : Digits Char.isDigit whole)
      (hexponent : ExponentText ['e', 'E'] exponent) : FloatLiteral (whole ++ exponent)
  | fraction {fraction exponent : List Char} (hfraction : Digits Char.isDigit fraction)
      (hexponent : exponent = [] ∨ ExponentText ['e', 'E'] exponent) :
      FloatLiteral ('.' :: fraction ++ exponent)
  | hexadecimal {letter : Char} {mantissa exponent : List Char}
      (hletter : letter = 'x' ∨ letter = 'X') (hmantissa : HexMantissa mantissa)
      (hexponent : ExponentText ['p', 'P'] exponent) :
      FloatLiteral ('0' :: letter :: mantissa ++ exponent)

/-! ## Digits -/

section
variable {isDigit isDigit' : Char → Bool} {d : Char} {text rest : List Char}

theorem Digits.ne_nil (h : Digits isDigit text) : text ≠ [] := by
  cases h with
  | _ => exact List.cons_ne_nil _ _

theorem MoreDigits.ne_nil (h : MoreDigits isDigit text) : text ≠ [] := by
  cases h with
  | digits h => exact h.ne_nil
  | separated h => exact List.cons_ne_nil _ _

/-- Behind the first digit come more, or nothing. -/
theorem digits_cons_iff :
    Digits isDigit (d :: rest) ↔
      isDigit d = true ∧ (rest = [] ∨ MoreDigits isDigit rest) := by
  constructor
  · intro h
    cases h with
    | single hd => exact ⟨hd, .inl rfl⟩
    | digit hd hrest => exact ⟨hd, .inr (.digits hrest)⟩
    | separated hd hrest => exact ⟨hd, .inr (.separated hrest)⟩
  · rintro ⟨hd, rfl | hrest⟩
    · exact .single hd
    · cases hrest with
      | digits h => exact .digit hd h
      | separated h => exact .separated hd h

theorem Digits.mono (h : Digits isDigit text)
    (himp : ∀ c ∈ text, isDigit c = true → isDigit' c = true) : Digits isDigit' text := by
  induction h with
  | single hd => exact .single (himp _ List.mem_cons_self hd)
  | digit hd _ ih =>
    exact .digit (himp _ List.mem_cons_self hd)
      (ih fun c hc => himp c (List.mem_cons_of_mem _ hc))
  | separated hd _ ih =>
    exact .separated (himp _ List.mem_cons_self hd)
      (ih fun c hc => himp c (List.mem_cons_of_mem _ (List.mem_cons_of_mem _ hc)))

theorem MoreDigits.mono (h : MoreDigits isDigit text)
    (himp : ∀ c ∈ text, isDigit c = true → isDigit' c = true) : MoreDigits isDigit' text := by
  cases h with
  | digits h => exact .digits (h.mono himp)
  | separated h => exact .separated (h.mono fun c hc => himp c (List.mem_cons_of_mem _ hc))

theorem Digits.digit_or_separator (h : Digits isDigit text) :
    ∀ c ∈ text, isDigit c = true ∨ c = '_' := by
  induction h with
  | single hd => simp [hd]
  | digit hd _ ih => exact List.forall_mem_cons.2 ⟨.inl hd, ih⟩
  | separated hd _ ih =>
    exact List.forall_mem_cons.2 ⟨.inl hd, List.forall_mem_cons.2 ⟨.inr rfl, ih⟩⟩

theorem MoreDigits.digit_or_separator (h : MoreDigits isDigit text) :
    ∀ c ∈ text, isDigit c = true ∨ c = '_' := by
  cases h with
  | digits h => exact h.digit_or_separator
  | separated h => exact List.forall_mem_cons.2 ⟨.inr rfl, h.digit_or_separator⟩

theorem Digits.any (h : Digits isDigit text) : text.any isDigit = true := by
  cases h with
  | single hd => simp [hd]
  | digit hd _ => simp [hd]
  | separated hd _ => simp [hd]

theorem MoreDigits.any (h : MoreDigits isDigit text) : text.any isDigit = true := by
  cases h with
  | digits h => exact h.any
  | separated h => rw [List.any_cons, h.any, Bool.or_true]

end

/-! ## Underscores -/

namespace Number

variable {isDigit : Char → Bool} {before : SeparatorContext} {text : List Char}

/-- Every underscore stands behind a digit and in front of one. -/
def Separated (isDigit : Char → Bool) : SeparatorContext → List Char → Prop
  | before, [] => before ≠ .separator
  | before, c :: rest =>
    if c = '_' then before = .digit ∧ Separated isDigit .separator rest
    else if isDigit c then Separated isDigit .digit rest
    else before ≠ .separator ∧ Separated isDigit .other rest

theorem findMisplaced?_eq_none_iff {index : Nat} :
    findMisplaced? isDigit before index text = none ↔ Separated isDigit before text := by
  induction text generalizing before index with
  | nil => simp [findMisplaced?, Separated]
  | cons c rest ih =>
    unfold findMisplaced? Separated
    split
    · split
      · next hbefore => simp [ih, hbefore]
      · next hbefore => simp [hbefore]
    split
    · exact ih
    split
    · next hbefore => simp [hbefore]
    · next hbefore => simp [ih, hbefore]

/-- What the stretch of digits that stands at the start of a text has to be. -/
def RunAllowed (isDigit : Char → Bool) (before : SeparatorContext) (run : List Char) : Prop :=
  match before with
  | .other => run = [] ∨ Digits isDigit run
  | .digit => run = [] ∨ MoreDigits isDigit run
  | .separator => Digits isDigit run

theorem RunAllowed.mono {isDigit' : Char → Bool} {run : List Char}
    (h : RunAllowed isDigit before run)
    (himp : ∀ c ∈ run, isDigit c = true → isDigit' c = true) : RunAllowed isDigit' before run := by
  cases before with
  | other => exact h.imp_right fun hdigits => hdigits.mono himp
  | digit => exact h.imp_right fun hdigits => hdigits.mono himp
  | separator => exact Digits.mono h himp

theorem RunAllowed.digit_or_separator {run : List Char} (h : RunAllowed isDigit before run) :
    ∀ c ∈ run, isDigit c = true ∨ c = '_' := by
  have hnil : ∀ c ∈ ([] : List Char), isDigit c = true ∨ c = '_' := fun c hc => by cases hc
  cases before with
  | other => exact h.elim (fun hrun => hrun ▸ hnil) Digits.digit_or_separator
  | digit => exact h.elim (fun hrun => hrun ▸ hnil) MoreDigits.digit_or_separator
  | separator => exact Digits.digit_or_separator h

theorem RunAllowed.any {run : List Char} (h : RunAllowed isDigit before run) (hrun : run ≠ []) :
    run.any isDigit = true := by
  cases before with
  | other => exact (h.resolve_left hrun).any
  | digit => exact (h.resolve_left hrun).any
  | separator => exact Digits.any h

theorem runAllowed_digit_cons {d : Char} {run : List Char} (hd : isDigit d = true)
    (hunderscore : isDigit '_' = false) :
    RunAllowed isDigit before (d :: run) ↔ RunAllowed isDigit .digit run := by
  have hcons : Digits isDigit (d :: run) ↔ RunAllowed isDigit .digit run := by
    simp [digits_cons_iff, hd, RunAllowed]
  have hmore : MoreDigits isDigit (d :: run) ↔ Digits isDigit (d :: run) := by
    refine ⟨fun h => ?_, .digits⟩
    cases h with
    | digits h => exact h
    | separated h =>
      rw [hunderscore] at hd
      cases hd
  cases before with
  | digit => simp [RunAllowed, hmore, hcons]
  | separator => exact hcons
  | other => simp [RunAllowed, hcons]

theorem runAllowed_separator_cons {run : List Char} (hunderscore : isDigit '_' = false) :
    RunAllowed isDigit before ('_' :: run) ↔
      before = .digit ∧ RunAllowed isDigit .separator run := by
  have hdigits : ¬ Digits isDigit ('_' :: run) := by
    rw [digits_cons_iff, hunderscore]
    rintro ⟨h, -⟩
    cases h
  have hmore : MoreDigits isDigit ('_' :: run) ↔ Digits isDigit run := by
    refine ⟨fun h => ?_, .separated⟩
    cases h with
    | digits h => exact absurd h hdigits
    | separated h => exact h
  cases before with
  | digit => simp [RunAllowed, hmore]
  | separator => simp [RunAllowed, hdigits]
  | other => simp [RunAllowed, hdigits]

/-- A text that does not go on a stretch of digits. -/
def Interrupts (isDigit : Char → Bool) (text : List Char) : Prop :=
  ∀ c ∈ text.head?, c ≠ '_' ∧ isDigit c = false

/-- What comes after a stretch of digits has its underscores in their places whatever was before,
unless that was an underscore. -/
theorem separated_of_interrupts (h : Interrupts isDigit text) :
    Separated isDigit before text ↔ before ≠ .separator ∧ Separated isDigit .other text := by
  cases text with
  | nil => simp [Separated]
  | cons c rest =>
    obtain ⟨hunderscore, hdigit⟩ := h c rfl
    simp [Separated, hunderscore, hdigit]

/-- The underscores of a stretch of digits, and of what follows it, are in their places. -/
theorem separated_append {run rest : List Char} (hunderscore : isDigit '_' = false)
    (hrun : ∀ c ∈ run, isDigit c = true ∨ c = '_') (hrest : Interrupts isDigit rest) :
    Separated isDigit before (run ++ rest) ↔
      RunAllowed isDigit before run ∧ Separated isDigit .other rest := by
  induction run generalizing before with
  | nil =>
    rw [List.nil_append, separated_of_interrupts hrest]
    cases before with
    | separator =>
      have hnil : ¬ Digits isDigit [] := fun h => h.ne_nil rfl
      simp [RunAllowed, hnil]
    | digit => simp [RunAllowed]
    | other => simp [RunAllowed]
  | cons c run ih =>
    have hc := hrun c List.mem_cons_self
    have htail : ∀ d ∈ run, isDigit d = true ∨ d = '_' := fun d hd =>
      hrun d (List.mem_cons_of_mem _ hd)
    rw [List.cons_append, Separated]
    by_cases hcu : c = '_'
    · subst hcu
      rw [if_pos rfl, ih htail, runAllowed_separator_cons hunderscore, and_assoc]
    · have hd := hc.resolve_right hcu
      rw [if_neg hcu, if_pos hd, ih htail, runAllowed_digit_cons hd hunderscore]

end Number

end Lexis
