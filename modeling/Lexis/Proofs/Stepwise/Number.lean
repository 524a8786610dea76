import Lexis.Proofs.Stepwise.Digits

/-!
# Numbers step by step

A head reads a number part by part, each from where the one before it ended, and reports the faults
of a part as it comes to know them: the place of a radix point, then missing digits, then what is
wrong with the exponent, and at last the digit that is too large and the misplaced underscore, which
it finds in the text that it cuts out from the start of the number. That is the order in which
`Number.faults` lists them, so the head becomes that of the reading that reads the number whole
(`Reading.numberEnd?_head`).
-/

namespace Lexis

/-! ## The parts of a number -/

namespace Number

/-- The parts of a number are those that are read from a source, each from where the one before it
ended. -/
structure IsRead (m : Number) (floats : Bool) (source : List SourceChar) : Prop where
  lead : Radix.ofLead source = (m.radix, m.lead)
  whole : m.radix.run (source.drop m.lead.length) = m.whole
  fraction : m.fraction =
    if floats then readFraction? m.radix (source.drop (m.lead ++ m.whole).length) else none
  exponent : m.exponent =
    if floats then Exponent.read? (source.drop m.mantissa.length) else none
  begins : Begins m.text source
  composed : m.Composed

theorem isRead_read (floats : Bool) (source : List SourceChar) :
    (read floats source).IsRead floats source where
  lead := by rw [read_radix, read_lead]
  whole := by rw [read_radix, read_lead, read_whole]
  fraction := by
    cases floats with
    | false => rfl
    | true => exact read_fraction source
  exponent := by
    cases floats with
    | false => rfl
    | true => exact read_exponent source
  begins := begins_read floats source
  composed := composed_read floats source

theorem text_eq_append (m : Number) : m.text = m.mantissa ++ m.exponentText := rfl

theorem mantissa_of_fraction_eq_none {m : Number} (h : m.fraction = none) :
    m.mantissa = m.lead ++ m.whole := by
  rw [mantissa, fractionText, h]
  exact List.append_nil _

theorem length_mantissa_of_fraction {m : Number} {digits : List Char}
    (h : m.fraction = some digits) :
    m.mantissa.length = (m.lead ++ m.whole).length + 1 + digits.length := by
  rw [mantissa, fractionText, h, List.length_append, List.length_cons]
  omega

theorem text_of_exponent_eq_none {m : Number} (h : m.exponent = none) : m.text = m.mantissa := by
  rw [text_eq_append, exponentText, h]
  exact List.append_nil _

theorem length_text_of_exponent {m : Number} {e : Exponent} (h : m.exponent = some e) :
    m.text.length = m.mantissa.length + 1 + e.sign.length + e.digits.length := by
  rw [text_eq_append, exponentText, h]
  simp only [Option.map_some, Option.getD_some, Exponent.text, List.length_append,
    List.length_cons]
  omega

/-- Neither the letter of an exponent nor its sign is an underscore. -/
theorem Composed.contains_exponentText {m : Number} (hm : m.Composed) {e : Exponent}
    (he : m.exponent = some e) : m.exponentText.contains '_' = e.digits.contains '_' := by
  have hletter : '_' ≠ e.marker := by
    intro hunderscore
    have hmarker := hm.isMarker e he
    rw [← hunderscore] at hmarker
    exact absurd hmarker (by decide)
  have hsign : '_' ∉ e.sign := by
    rcases hm.sign e he with h | h | h <;> rw [h] <;> decide
  rw [exponentText, he, Bool.eq_iff_iff, List.contains_iff_mem, List.contains_iff_mem]
  simp [Exponent.text, hletter, hsign]

theorem findMisplaced?_eq_none_of_not_mem {isDigit : Char → Bool} {before : SeparatorContext}
    (hbefore : before ≠ .separator) {text : List Char} (h : '_' ∉ text) (index : Nat) :
    findMisplaced? isDigit before index text = none := by
  induction text generalizing before index with
  | nil => rw [findMisplaced?, if_neg hbefore]
  | cons c text ih =>
    rw [List.mem_cons, not_or] at h
    rw [findMisplaced?, if_neg (Ne.symm h.1), if_neg hbefore]
    split
    · exact ih (by decide) h.2 _
    · exact ih (by decide) h.2 _

/-- Without underscores none is misplaced. -/
theorem misplacedSeparator?_eq_none_of_not_mem {text : List Char} (h : '_' ∉ text) :
    misplacedSeparator? text = none := by
  unfold misplacedSeparator?
  split
  · next letter rest =>
    split
    · refine findMisplaced?_eq_none_of_not_mem (by decide) ?_ 2
      exact fun hmem => h (List.mem_cons_of_mem _ (List.mem_cons_of_mem _ hmem))
    · exact findMisplaced?_eq_none_of_not_mem (by decide) h 0
  · exact findMisplaced?_eq_none_of_not_mem (by decide) h 0

/-- A fraction is read where a point stands. -/
theorem isSome_readFraction? (radix : Radix) (source : List SourceChar) :
    (readFraction? radix source).isSome = source.head?.any fun c => c.char = '.' := by
  unfold readFraction?
  split
  · rfl
  · next hpoint =>
    cases source with
    | nil => rfl
    | cons c rest =>
      have hc : c.char ≠ '.' := by
        intro hchar
        exact hpoint rest (by rw [Lexeme.eq_valid_of_char_eq hchar (by decide)])
      rw [List.head?_cons, Option.any_some, decide_eq_false hc]
      rfl

end Number

namespace Exponent

theorem ascii_of_isMarker (c : Char) (h : isMarker c = true) : c.toNat < 128 ∧ c ≠ '\x00' := by
  refine ⟨(isPlain_of_isMarker h).lt, ?_⟩
  rintro rfl
  exact absurd h (by decide)

/-- An exponent is read where a character announces one. -/
theorem isSome_read? (source : List SourceChar) :
    (read? source).isSome = source.head?.any fun c => isMarker c.char := by
  cases source with
  | nil => rfl
  | cons c rest =>
    cases c with
    | valid marker =>
      rw [List.head?_cons, Option.any_some, SourceChar.char_valid, read?]
      split
      · next h => exact h.symm
      · next h => exact (Bool.eq_false_iff.2 h).symm
    | replaced bytes => rfl

/-- The sign at the start of a source, or nothing. -/
def signOf (source : List SourceChar) : List Char :=
  plainText ((source.take 1).filter fun c => c.char = '+' || c.char = '-')

theorem read?_eq_some {source : List SourceChar} {e : Exponent} (h : read? source = some e) :
    ∃ rest, source = .valid e.marker :: rest ∧ e.sign = signOf rest ∧
      e.digits = Radix.decimal.run (rest.drop e.sign.length) := by
  unfold read? at h
  split at h
  · next marker rest =>
    split at h
    · cases h
      exact ⟨rest, rfl, rfl, rfl⟩
    · cases h
  · cases h

end Exponent

namespace Number.IsRead

variable {m : Number} {floats : Bool} {source : List SourceChar}

theorem isSome_fraction (hm : m.IsRead floats source) :
    m.fraction.isSome =
      ((source.drop (m.lead ++ m.whole).length).head?.any (fun c => c.char = '.') && floats) := by
  rw [hm.fraction, ← isSome_readFraction? m.radix]
  cases floats with
  | false => exact (Bool.and_false _).symm
  | true => exact (Bool.and_true _).symm

theorem isSome_exponent (hm : m.IsRead floats source) :
    m.exponent.isSome =
      ((source.drop m.mantissa.length).head?.any (fun c => Exponent.isMarker c.char) && floats) := by
  rw [hm.exponent, ← Exponent.isSome_read?]
  cases floats with
  | false => exact (Bool.and_false _).symm
  | true => exact (Bool.and_true _).symm

/-- A fraction stands behind a point. -/
theorem of_fraction (hm : m.IsRead floats source) {digits : List Char}
    (h : m.fraction = some digits) :
    ∃ more, source.drop (m.lead ++ m.whole).length = .valid '.' :: more ∧
      digits = m.radix.run more := by
  have hfraction := hm.fraction
  rw [h] at hfraction
  split at hfraction
  · exact of_readFraction?_eq_some hfraction.symm
  · cases hfraction

/-- An exponent stands behind the mantissa. -/
theorem of_exponent (hm : m.IsRead floats source) {e : Exponent} (h : m.exponent = some e) :
    ∃ more, source.drop m.mantissa.length = .valid e.marker :: more ∧
      e.sign = Exponent.signOf more ∧ e.digits = Radix.decimal.run (more.drop e.sign.length) := by
  have hexponent := hm.exponent
  rw [h] at hexponent
  split at hexponent
  · exact Exponent.read?_eq_some hexponent.symm
  · cases hexponent

end Number.IsRead

/-! ## What is seen of a mantissa -/

/-- Underscores stand in the digits of a number only. -/
theorem Number.Composed.underscore_notMem_lead {m : Number} (h : m.Composed) : '_' ∉ m.lead := by
  rcases h.lead with ⟨-, hlead, -⟩ | ⟨-, hlead⟩ | ⟨letter, hletter, hlead⟩
  · rw [hlead]
    exact List.not_mem_nil
  · rw [hlead]
    decide
  · rw [hlead]
    rcases Radix.mem_of_ofLetter? hletter with ⟨-, rfl | rfl⟩ | ⟨-, rfl | rfl⟩ | ⟨-, rfl | rfl⟩ <;>
      decide

namespace Stepper.Seen

/-- What has been seen when the mantissa of a number that starts at `p` has been read. -/
structure Tells (seen : Seen) (m : Number) (p : Position) : Prop where
  digit : seen.digit = m.hasDigits
  separator : seen.separator = true ↔ '_' ∈ m.mantissa
  /-- Only of integers it is told where a digit is too large. -/
  exceeding : m.fraction = none → seen.exceeding =
    (firstExceeding? m.radix m.lead.length m.whole).map fun (c, i) => (c, p.across i)

/-- What has been seen of a number that starts at `p` before a radix point. -/
def ofWhole (m : Number) (p : Position) : Seen :=
  ⟨m.radix = .leadingZero || m.whole.any m.radix.isDigit, m.whole.contains '_',
    (firstExceeding? m.radix m.lead.length m.whole).map fun (c, i) => (c, p.across i)⟩

variable {m : Number}

/-- Without a fraction, what comes before a point is the mantissa. -/
theorem tells_ofWhole (hm : m.Composed) (h : m.fraction = none) (p : Position) :
    (ofWhole m p).Tells m p where
  digit := by simp [ofWhole, Number.hasDigits, h]
  separator := by
    rw [Number.mantissa_of_fraction_eq_none h]
    simp [ofWhole, hm.underscore_notMem_lead]
  exceeding := fun _ => rfl

/-- The digits of a fraction are seen after those before the point. -/
theorem tells_addRun (hm : m.Composed) {digits : List Char} (h : m.fraction = some digits)
    (p q : Position) : ((ofWhole m p).addRun m.radix q digits).Tells m p where
  digit := by
    rw [addRun_digit (hm.fraction digits h), Number.hasDigits, h, Option.getD_some, List.any_append,
      ← Bool.or_assoc]
    rfl
  separator := by
    rw [addRun_separator (hm.fraction digits h)]
    simp [ofWhole, Number.mantissa, Number.fractionText, h, hm.underscore_notMem_lead]
  exceeding := fun hnone => by
    rw [h] at hnone
    cases hnone

end Stepper.Seen

namespace Reading

variable {r : Reading} {m : Number} {floats : Bool} {rounds : Nat}

@[simp]
theorem tell_rest (r : Reading) (p : Position) (faults : List (Nat × Fault)) :
    (r.tell p faults).rest = r.rest := by
  rw [rest, tell_cursor]

theorem length_rest_ahead_le (r : Reading) (n : Nat) : (r.ahead n).rest.length ≤ r.rest.length := by
  rw [rest_ahead, List.length_drop]
  omega

/-- The place of a character of plain text. -/
theorem position_ahead {text : List Char} (h : Begins text r.rest) {k : Nat}
    (hk : k ≤ text.length) :
    (r.ahead k).position = r.position.across k :=
  advance_position_eq_across h hk

/-- Reading the digits before a radix point. -/
theorem whole?_head (hm : m.IsRead floats r.rest) (h : r.Stands)
    (hrounds : r.rest.length < rounds) :
    Stepper.digits? m.radix rounds ⟨m.radix = .leadingZero, false, none⟩
        (r.ahead m.lead.length).head =
      some (.ofWhole m r.position, (r.ahead (m.lead ++ m.whole).length).head) := by
  have hround := Nat.lt_of_le_of_lt (length_rest_ahead_le r m.lead.length) hrounds
  have hlength : m.lead.length ≤ m.text.length := by
    have hwhole := m.length_whole_le
    have hmantissa := m.length_mantissa_le
    omega
  rw [digits?_head m.radix _ (h.ahead _) hround, rest_ahead, hm.whole, ahead_ahead,
    position_ahead hm.begins hlength, Stepper.Seen.addRun_eq hm.composed.whole, List.length_append]
  rfl

/-- A head knows a radix point by its byte. -/
theorem point_current (hm : m.IsRead floats r.rest) :
    (decide (Char.ofNat (r.ahead (m.lead ++ m.whole).length).cursor.current.toNat = '.') &&
      floats) = m.fraction.isSome := by
  have hascii (c : Char) (hc : decide (c = '.') = true) : c.toNat < 128 ∧ c ≠ '\x00' := by
    rw [of_decide_eq_true hc]
    decide
  have htest := @test_current (r.ahead (m.lead ++ m.whole).length) _ hascii
  rw [hm.isSome_fraction, htest]
  rfl

/-- Going over a radix point. -/
theorem bump_point (hm : m.IsRead floats r.rest) {digits : List Char}
    (hfraction : m.fraction = some digits) :
    (r.ahead (m.lead ++ m.whole).length).bump = r.ahead ((m.lead ++ m.whole).length + 1) := by
  obtain ⟨more, hrest, -⟩ := hm.of_fraction hfraction
  rw [bump_eq_ahead (by rw [rest_ahead, hrest]) (by decide), ahead_ahead]

/-- The fault of a point is reported behind the point, with the place of the point. -/
theorem point_tell (hm : m.IsRead floats r.rest) (hfraction : m.fraction.isSome = true)
    (s : Reading) :
    (if m.radix = .octal || m.radix = .binary then
        s.head.reportAt (r.ahead (m.lead ++ m.whole).length).head.position
          (.invalidRadixPoint m.radix.numeral)
      else s.head) = (s.tell r.position m.pointFaults).head := by
  have hlength : (m.lead ++ m.whole).length ≤ m.text.length := by
    rw [List.length_append]
    exact m.length_whole_le.trans m.length_mantissa_le
  have hposition : (r.ahead (m.lead ++ m.whole).length).head.position =
      r.position.across (m.lead ++ m.whole).length :=
    position_ahead hm.begins hlength
  rw [Number.pointFaults, hfraction, Bool.true_and, hposition]
  split
  · rfl
  · rfl

/-- Reading the digits behind a radix point. -/
theorem fractionDigits?_head (hm : m.IsRead floats r.rest) {digits : List Char}
    (hfraction : m.fraction = some digits) (h : r.Stands) (hrounds : r.rest.length < rounds)
    (told : List (Nat × Fault)) :
    ∃ seen, Stepper.digits? m.radix rounds (.ofWhole m r.position)
          ((r.ahead ((m.lead ++ m.whole).length + 1)).tell r.position told).head =
        some (seen, ((r.ahead m.mantissa.length).tell r.position told).head) ∧
      seen.Tells m r.position := by
  obtain ⟨more, hrest, hdigits⟩ := hm.of_fraction hfraction
  have hbehind : ((r.ahead ((m.lead ++ m.whole).length + 1)).tell r.position told).rest = more := by
    rw [tell_rest, rest_ahead, ← List.drop_drop, hrest]
    rfl
  have hround := Nat.lt_of_le_of_lt
    (length_rest_ahead_le r ((m.lead ++ m.whole).length + 1)) hrounds
  have hrun := digits?_head m.radix (.ofWhole m r.position)
    ((h.ahead ((m.lead ++ m.whole).length + 1)).tell r.position told)
    (by rw [tell_rest]; exact hround)
  rw [hbehind, ← hdigits, ahead_tell, ahead_ahead,
    ← Number.length_mantissa_of_fraction hfraction] at hrun
  exact ⟨_, hrun, Stepper.Seen.tells_addRun hm.composed hfraction _ _⟩

/-- Reading a number up to its exponent. -/
theorem mantissa?_head (hm : m.IsRead floats r.rest) (h : r.Stands)
    (hrounds : r.rest.length < rounds) :
    ∃ seen, Stepper.mantissa? rounds floats r.head = some (m.radix, seen, m.fraction.isSome,
        ((r.ahead m.mantissa.length).tell r.position m.pointFaults).head) ∧
      seen.Tells m r.position := by
  rw [Stepper.mantissa?, lead?_head h, hm.lead]
  simp only [Option.bind_eq_bind, Option.bind_some, whole?_head hm h hrounds, Head.head_eq,
    Head.bump?_eq, Head.reportAt_eq, byteChar?_head (h.ahead _), point_current hm]
  cases hfraction : m.fraction with
  | none =>
    rw [Option.isSome_none, if_neg Bool.false_ne_true, Number.pointFaults, hfraction,
      Number.mantissa_of_fraction_eq_none hfraction]
    exact ⟨_, rfl, Stepper.Seen.tells_ofWhole hm.composed hfraction _⟩
  | some digits =>
    obtain ⟨seen, hdigits, hseen⟩ := fractionDigits?_head hm hfraction h hrounds m.pointFaults
    have hpoint := point_tell hm (by rw [hfraction]; rfl)
      (r.ahead ((m.lead ++ m.whole).length + 1))
    rw [Option.isSome_some, if_pos rfl, bump?_head (h.ahead _), bump_point hm hfraction]
    simp only [Option.bind_some, hpoint, hdigits]
    exact ⟨seen, rfl, hseen⟩

/-- Reading a number from behind a radix point that it starts with. -/
theorem fraction?_head {more : List SourceChar} (hrest : r.rest = .valid '.' :: more)
    (hm : m.IsRead true r.rest) (h : r.Stands) (hrounds : r.rest.length < rounds) :
    ∃ seen, Stepper.fraction? rounds (r.ahead 1).head = some (m.radix, seen, m.fraction.isSome,
        ((r.ahead m.mantissa.length).tell r.position m.pointFaults).head) ∧
      seen.Tells m r.position := by
  -- the point leaves nothing for a lead or a whole part
  have hlead := hm.lead
  have hwhole := hm.whole
  have hfraction := hm.fraction
  rw [hrest] at hlead hwhole hfraction
  obtain ⟨hradix, hnil⟩ := Prod.mk.inj (show (Radix.decimal, []) = (m.radix, m.lead) from hlead)
  rw [← hradix, ← hnil, List.length_nil, List.drop_zero,
    Radix.run_cons_of_not_accepts (by decide)] at hwhole
  rw [if_pos rfl, ← hradix, ← hnil, ← hwhole] at hfraction
  have hsome : m.fraction = some (Radix.decimal.run more) := hfraction
  have hpoint : m.pointFaults = [] := by
    rw [Number.pointFaults, ← hradix]
    simp
  have hnothing : Stepper.Seen.ofWhole m r.position = .nothing := by
    rw [Stepper.Seen.ofWhole, ← hradix, ← hwhole]
    rfl
  obtain ⟨seen, hdigits, hseen⟩ := fractionDigits?_head hm hsome h hrounds []
  rw [tell_nil, tell_nil, hnothing, ← hradix, ← hnil, ← hwhole] at hdigits
  rw [Stepper.fraction?]
  refine ⟨seen, ?_, hseen⟩
  rw [← hradix, hsome, hpoint, tell_nil]
  exact congrArg (Option.bind · _) hdigits

/-! ## The exponent -/

/-- Reading a sign, if there is one. -/
theorem sign?_head (h : r.Stands) :
    Stepper.sign? r.head = some (r.ahead (Exponent.signOf r.rest).length).head := by
  have htest := @test_current r (fun c => c = '+' || c = '-') fun c hc => by
    rw [Bool.or_eq_true, decide_eq_true_eq, decide_eq_true_eq] at hc
    rcases hc with rfl | rfl <;> decide
  rw [Stepper.sign?, Head.head_eq, byteChar?_head h]
  simp only [Option.bind_eq_bind, Option.bind_some, htest, Head.bump?_eq, bump?_head h]
  cases hrest : r.rest with
  | nil =>
    show some r.head = some (r.ahead 0).head
    rw [ahead_zero]
  | cons c more =>
    rw [List.head?_cons, Option.any_some, Exponent.signOf]
    by_cases hsign : (c.char = '+' || c.char = '-') = true
    · have hvalid := SourceChar.eq_valid_of_isPlain (Exponent.isPlain_of_isSign hsign)
      have hnul : c.char ≠ '\x00' := by
        intro he
        rw [he] at hsign
        exact absurd hsign (by decide)
      rw [hvalid] at hrest
      rw [if_pos hsign, bump_eq_ahead hrest hnul]
      simp [hsign]
    · rw [if_neg hsign]
      simp [hsign, ahead_zero]

/-- The faults of the letter that announces an exponent. -/
theorem marker_tell (hm : m.IsRead floats r.rest) {e : Exponent} (he : m.exponent = some e)
    (faults : List (Nat × Fault)) :
    ∃ told, (if e.marker = 'p' || e.marker = 'P' then
          if m.radix = .hexadecimal then
            ((r.ahead m.mantissa.length).tell r.position faults).head
          else Stepper.report ((r.ahead m.mantissa.length).tell r.position faults).head
            (.exponentRequiresHex e.marker)
        else if m.radix = .decimal || m.radix = .leadingZero then
          ((r.ahead m.mantissa.length).tell r.position faults).head
        else Stepper.report ((r.ahead m.mantissa.length).tell r.position faults).head
          (.exponentRequiresDecimal e.marker)) =
        ((r.ahead m.mantissa.length).tell r.position (faults ++ told)).head ∧
      m.exponentFaults = told ++
        if e.digits.any Char.isDigit then [] else [(m.text.length, .exponentNoDigits)] := by
  have hreport := report_tell hm.begins m.length_mantissa_le faults
  have hbinary : e.isBinary = (e.marker = 'p' || e.marker = 'P') := rfl
  refine ⟨_, ?_, by rw [Number.exponentFaults, he]⟩
  simp only [head_report, hreport, hbinary]
  split
  · split
    · rw [List.append_nil]
    · rfl
  · split
    · rw [List.append_nil]
    · rfl

/-- A head knows the letter of an exponent by its byte. -/
theorem exponent_current (hm : m.IsRead floats r.rest) :
    (Exponent.isMarker (Char.ofNat (r.ahead m.mantissa.length).cursor.current.toNat) && floats) =
      m.exponent.isSome := by
  rw [hm.isSome_exponent, ← rest_ahead, test_current Exponent.ascii_of_isMarker]

theorem marker_current (hm : m.IsRead floats r.rest) {e : Exponent} (he : m.exponent = some e) :
    Char.ofNat (r.ahead m.mantissa.length).cursor.current.toNat = e.marker := by
  obtain ⟨more, hrest, -⟩ := hm.of_exponent he
  obtain ⟨hascii, hnul⟩ := Exponent.ascii_of_isMarker _ (hm.composed.isMarker e he)
  exact (ofNat_current_eq_iff hascii hnul).2 ⟨more, hrest⟩

/-- Going over the letter of an exponent. -/
theorem bump_marker (hm : m.IsRead floats r.rest) {e : Exponent} (he : m.exponent = some e)
    (told : List (Nat × Fault)) :
    ((r.ahead m.mantissa.length).tell r.position told).bump =
      (r.ahead (m.mantissa.length + 1)).tell r.position told := by
  obtain ⟨more, hrest, -⟩ := hm.of_exponent he
  have hnul := (Exponent.ascii_of_isMarker _ (hm.composed.isMarker e he)).2
  have hhere : ((r.ahead m.mantissa.length).tell r.position told).rest =
      .valid e.marker :: more := by
    rw [tell_rest, rest_ahead, hrest]
  rw [bump_eq_ahead hhere hnul, ahead_tell, ahead_ahead]

/-- Behind its letter, the sign of an exponent is read and then its digits, to the end of the
number. -/
theorem exponentDigits?_head (hm : m.IsRead floats r.rest) {e : Exponent}
    (he : m.exponent = some e) (h : r.Stands) (hrounds : r.rest.length < rounds)
    (told : List (Nat × Fault)) :
    ∃ seen, (Stepper.sign? ((r.ahead (m.mantissa.length + 1)).tell r.position told).head).bind
          (Stepper.digits? .decimal rounds .nothing) =
        some (seen, ((r.ahead m.text.length).tell r.position told).head) ∧
      seen.digit = e.digits.any Char.isDigit ∧ seen.separator = m.exponentText.contains '_' := by
  obtain ⟨more, hrest, hsign, hdigits⟩ := hm.of_exponent he
  have hstands (n : Nat) : ((r.ahead n).tell r.position told).Stands :=
    (h.ahead n).tell r.position told
  have hbehind : ((r.ahead (m.mantissa.length + 1)).tell r.position told).rest = more := by
    rw [tell_rest, rest_ahead, ← List.drop_drop, hrest]
    rfl
  have hsigned := sign?_head (hstands (m.mantissa.length + 1))
  rw [hbehind, ← hsign, ahead_tell, ahead_ahead] at hsigned
  have hfurther : ((r.ahead (m.mantissa.length + 1 + e.sign.length)).tell r.position told).rest =
      more.drop e.sign.length := by
    rw [← ahead_ahead, ← ahead_tell, rest_ahead, hbehind]
  have hround := Nat.lt_of_le_of_lt
    (length_rest_ahead_le r (m.mantissa.length + 1 + e.sign.length)) hrounds
  have hrun := digits?_head .decimal .nothing (hstands (m.mantissa.length + 1 + e.sign.length))
    (by rw [tell_rest]; exact hround)
  rw [hfurther, ← hdigits, ahead_tell, ahead_ahead, ← Number.length_text_of_exponent he] at hrun
  have haccepts := hm.composed.digits e he
  refine ⟨_, by rw [hsigned, Option.bind_some, hrun], ?_, ?_⟩
  · exact Stepper.Seen.addRun_digit haccepts _ _
  · rw [hm.composed.contains_exponentText he]
    exact Stepper.Seen.addRun_separator haccepts _ _

/-- Reading an exponent, or finding that there is none. -/
theorem exponent?_head (hm : m.IsRead floats r.rest) (h : r.Stands)
    (hrounds : r.rest.length < rounds) (faults : List (Nat × Fault)) :
    Stepper.exponent? rounds floats m.radix m.fraction.isSome
        ((r.ahead m.mantissa.length).tell r.position faults).head =
      some (m.exponentText.contains '_', m.fraction.isSome || m.exponent.isSome,
        ((r.ahead m.text.length).tell r.position (faults ++ m.exponentFaults)).head) := by
  have hstands (told : List (Nat × Fault)) :
      ((r.ahead m.mantissa.length).tell r.position told).Stands :=
    (h.ahead _).tell r.position told
  rw [Stepper.exponent?, Head.head_eq, byteChar?_head (hstands faults), tell_cursor]
  simp only [Option.bind_eq_bind, Option.bind_some, exponent_current hm, Head.bump?_eq]
  cases he : m.exponent with
  | none =>
    have hreport := report_tell hm.begins m.length_mantissa_le faults .hexMantissaRequiresExponent
    rw [Option.isSome_none, if_neg Bool.false_ne_true, Number.exponentFaults, Number.exponentText,
      he, Number.text_of_exponent_eq_none he, head_report, hreport]
    split
    · simp
    · simp
  | some e =>
    obtain ⟨told, htold, hfaults⟩ := marker_tell hm he faults
    obtain ⟨seen, hdigits, hdigit, hseparator⟩ :=
      exponentDigits?_head hm he h hrounds (faults ++ told)
    have hreport := report_tell hm.begins (Nat.le_refl _) (faults ++ told) .exponentNoDigits
    rw [Option.isSome_some, if_pos rfl, marker_current hm he, htold, bump?_head (hstands _),
      bump_marker hm he, Option.bind_some, ← Option.bind_assoc, hdigits, Option.bind_some, hdigit,
      hseparator, hfaults, ← List.append_assoc, head_report, hreport, Bool.or_true]
    split
    · rw [List.append_nil]
      rfl
    · rfl

/-! ## The end of a number -/

/-- The digit that is too large, counted from the start of the number. -/
theorem firstExceeding?_eq (m : Number) :
    Stepper.Seen.firstExceeding? m.radix m.lead.length m.whole =
      (m.whole.zipIdx.find? fun (c, _) => m.radix.exceeds c).map fun (c, index) =>
        (c, m.lead.length + index) := by
  rw [Stepper.Seen.firstExceeding?, List.zipIdx_eq_map_add, List.find?_map]
  rfl

/-- What has been seen tells of an integer which digit is too large. -/
theorem exceeding_tell (s : Reading) {seen : Stepper.Seen} {p : Position} (hseen : seen.Tells m p) :
    (if m.fraction.isSome || m.exponent.isSome then s.head
      else Stepper.reportExceeding m.radix seen s.head) = (s.tell p m.rangeFaults).head := by
  have hkind : m.kind =
      if m.fraction.isSome || m.exponent.isSome then Kind.float else .integer := rfl
  cases hfloat : m.fraction.isSome || m.exponent.isSome with
  | true =>
    rw [hfloat, if_pos rfl] at hkind
    rw [if_pos rfl, Number.rangeFaults, hkind, if_neg (by decide), tell_nil]
  | false =>
    rw [hfloat, if_neg Bool.false_ne_true] at hkind
    have hnone : m.fraction = none := by
      rw [Bool.or_eq_false_iff, Option.isSome_eq_false_iff, Option.isNone_iff_eq_none] at hfloat
      exact hfloat.1
    rw [if_neg Bool.false_ne_true, Stepper.reportExceeding, hseen.exceeding hnone, firstExceeding?_eq,
      Number.rangeFaults, if_pos hkind]
    cases m.whole.zipIdx.find? (fun (c, _) => m.radix.exceeds c) with
    | none => rfl
    | some found => rfl

/-- The text that is cut out from the start of a number is the number, and the underscores are
checked in it. -/
theorem separators?_head (hm : m.IsRead floats r.rest) (h : r.Stands)
    (hrounds : r.rest.length < rounds) {seen : Bool} (hseen : seen = true ↔ '_' ∈ m.text)
    (faults : List (Nat × Fault)) :
    Stepper.separators? rounds r.position seen
        ((r.ahead m.text.length).tell r.position faults).head =
      some ((r.ahead m.text.length).tell r.position (faults ++ m.separatorFaults)).head := by
  cases seen with
  | false =>
    have hnone : '_' ∉ m.text := fun hmem => Bool.false_ne_true (hseen.2 hmem)
    rw [Number.separatorFaults, Number.misplacedSeparator?_eq_none_of_not_mem hnone,
      List.append_nil]
    rfl
  | true =>
    have hlength : m.text.length ≤ r.rest.length := by
      have hle := hm.begins.isPrefix.length_le
      rwa [List.length_map] at hle
    have hslice : ((r.ahead m.text.length).tell r.position faults).head.source.slice?
        r.position.offset
        ((r.ahead m.text.length).tell r.position faults).head.position.offset = some m.text := by
      have hcut := slice?_head h m.text.length
      rw [hm.begins.plainText_take] at hcut
      show ((r.ahead m.text.length).tell r.position faults).cursor.source.slice? r.position.offset
        ((r.ahead m.text.length).tell r.position faults).cursor.position.offset = _
      rw [tell_cursor]
      exact hcut
    have hbytes := Stepper.misplacedSeparator?_bytesOf hm.begins.isPlain
      (Nat.lt_of_le_of_lt hlength hrounds)
    rw [Stepper.separators?, Head.head_eq, hslice]
    simp only [Option.bind_eq_bind, Option.bind_some, hbytes, Number.separatorFaults]
    cases Number.misplacedSeparator? m.text with
    | none =>
      rw [List.append_nil]
      rfl
    | some index =>
      rw [tell_append]
      rfl

/-- Reading on behind the mantissa, to the end of the number and all its faults. -/
theorem numberEnd?_head (hm : m.IsRead floats r.rest) (h : r.Stands)
    (hrounds : r.rest.length < rounds) {seen : Stepper.Seen} (hseen : seen.Tells m r.position) :
    Stepper.numberEnd? rounds floats r.position (m.radix, seen, m.fraction.isSome,
        ((r.ahead m.mantissa.length).tell r.position m.pointFaults).head) =
      some (m.kind, (r.consumeNumber m).head) := by
  have hdigit : (if seen.digit then
        ((r.ahead m.mantissa.length).tell r.position m.pointFaults).head
      else Stepper.report ((r.ahead m.mantissa.length).tell r.position m.pointFaults).head
        (.noDigits m.radix.numeral)) =
      ((r.ahead m.mantissa.length).tell r.position (m.pointFaults ++ m.digitFaults)).head := by
    rw [hseen.digit, Number.digitFaults, head_report,
      report_tell hm.begins m.length_mantissa_le m.pointFaults]
    split
    · rw [List.append_nil]
    · rfl
  have hexponent := exponent?_head hm h hrounds (m.pointFaults ++ m.digitFaults)
  have hunderscore : (seen.separator || m.exponentText.contains '_') = true ↔ '_' ∈ m.text := by
    rw [Bool.or_eq_true, hseen.separator, List.contains_iff_mem, Number.text_eq_append,
      List.mem_append]
  have hseparators := separators?_head hm h hrounds hunderscore
    (m.pointFaults ++ m.digitFaults ++ m.exponentFaults ++ m.rangeFaults)
  have hkind : m.kind =
      if m.fraction.isSome || m.exponent.isSome then Kind.float else .integer := rfl
  have hconsume : r.consumeNumber m =
      (r.ahead m.text.length).tell r.position (m.pointFaults ++ m.digitFaults ++
        m.exponentFaults ++ m.rangeFaults ++ m.separatorFaults) := by
    rw [consumeNumber_eq_tell, bumps_eq_ahead hm.begins fun c hc => hm.composed.ne_nul hc]
    rfl
  rw [Stepper.numberEnd?]
  simp only [hdigit, hexponent, Option.bind_eq_bind, Option.bind_some, hkind, hconsume,
    exceeding_tell _ hseen, ← tell_append, hseparators]
  rfl

end Reading

end Lexis
