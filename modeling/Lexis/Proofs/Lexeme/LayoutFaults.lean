import Lexis.Proofs.Lexeme.NumberLayout

/-!
# The faults of a number

The faults that are found when a number is read are those that its layout shows
(`Number.mem_faults_iff`). They are found in five steps, each of which looks at a part of the
number, and what a step finds is said of the parts first and of the layout then.
-/

namespace Lexis

namespace Number

variable {n : Number}

/-! ## The radix point -/

theorem Composed.point_notMem_whole (h : n.Composed) : '.' ∉ n.lead ++ n.whole := by
  rw [List.mem_append, not_or]
  constructor
  · rcases h.lead.cases with ⟨-, hlead, -⟩ | ⟨-, hlead, -⟩ | ⟨letter, hletter, hlead, -⟩
    · simp [hlead]
    · simp [hlead]
    · have hmem := Radix.mem_of_ofLetter? hletter
      rw [hlead]
      grind
  · intro hmem
    exact absurd (h.whole _ hmem) (by simp [Radix.accepts])

theorem Composed.point_notMem_fraction (h : n.Composed) {digits : List Char}
    (hfraction : n.fraction = some digits) : '.' ∉ digits := by
  intro hmem
  exact absurd (h.fraction _ hfraction _ hmem) (by simp [Radix.accepts])

theorem Composed.point_notMem_exponentText (h : n.Composed) : '.' ∉ n.exponentText := by
  unfold exponentText
  cases he : n.exponent with
  | none => exact List.not_mem_nil
  | some e =>
    have hmarker := h.isMarker e he
    have hletter : '.' ≠ e.marker := by
      intro hpoint
      rw [← hpoint] at hmarker
      exact absurd hmarker (by decide)
    have hsign : '.' ∉ e.sign := by
      rcases h.sign e he with hs | hs | hs <;> rw [hs] <;> decide
    have hdigits : '.' ∉ e.digits := fun hmem =>
      absurd (h.digits e he _ hmem) (by simp [Radix.accepts])
    simp [Exponent.text, hletter, hsign, hdigits]

/-- The radix point stands behind the whole part. -/
theorem Composed.getElem?_text_eq_point_iff (h : n.Composed) {i : Nat} :
    n.text[i]? = some '.' ↔ n.fraction.isSome = true ∧ i = (n.lead ++ n.whole).length := by
  have htext : n.text = (n.lead ++ n.whole) ++ (n.fractionText ++ n.exponentText) := by
    rw [text_eq, tail, List.append_assoc]
  rw [htext]
  cases hfraction : n.fraction with
  | some digits =>
    have hdigits := h.point_notMem_fraction hfraction
    have hbehind : '.' ∉ digits ++ n.exponentText := by
      rw [List.mem_append, not_or]
      exact ⟨hdigits, h.point_notMem_exponentText⟩
    rw [fractionText, hfraction]
    dsimp only
    rw [List.cons_append, getElem?_append_cons_eq_some_iff h.point_notMem_whole hbehind]
    simp
  | none =>
    have hnone : '.' ∉ (n.lead ++ n.whole) ++ n.exponentText := by
      rw [List.mem_append, not_or]
      exact ⟨h.point_notMem_whole, h.point_notMem_exponentText⟩
    rw [fractionText, hfraction]
    dsimp only
    rw [List.nil_append]
    simp only [Option.isSome_none, Bool.false_eq_true, false_and, iff_false]
    exact fun hi => hnone (List.mem_of_getElem? hi)

theorem Composed.point_mem_text_iff (h : n.Composed) :
    '.' ∈ n.text ↔ n.fraction.isSome = true := by
  rw [List.mem_iff_getElem?]
  simp [h.getElem?_text_eq_point_iff]

/-! ## One fault at a time -/

theorem mem_pointFaults_iff (h : n.Composed) {i : Nat} {f : Fault} :
    (i, f) ∈ n.pointFaults ↔
      (n.radix = .octal ∨ n.radix = .binary) ∧ n.text[i]? = some '.' ∧
        f = .invalidRadixPoint n.radix.numeral := by
  rw [h.getElem?_text_eq_point_iff, pointFaults]
  by_cases hpoint : n.fraction.isSome = true
  · by_cases hradix : n.radix = .octal ∨ n.radix = .binary
    · simp [hpoint, hradix]
    · simp [hpoint, hradix]
  · simp [hpoint]

theorem mem_digitFaults_iff (h : n.Composed) {i : Nat} {f : Fault} :
    (i, f) ∈ n.digitFaults ↔
      (∀ c ∈ (n.layout h).mantissa, n.radix.isDigit c = false) ∧ i = n.mantissa.length ∧
        f = .noDigits n.radix.numeral := by
  have hnone : n.hasDigits = false ↔ ∀ c ∈ (n.layout h).mantissa, n.radix.isDigit c = false := by
    show _ ↔ ∀ c ∈ n.leadingZero ++ (n.whole ++ n.fractionText), _
    rw [hasDigits, leadingZero, fractionText]
    by_cases hradix : n.radix = .leadingZero
    -- a leading zero is a digit, whatever follows it
    · have hzero : '0' ∈ n.lead := by simp [h.lead_of_leadingZero hradix]
      have hdigit : n.radix.isDigit '0' = true := by rw [hradix]; decide
      rw [if_pos hradix, decide_eq_true hradix, Bool.true_or]
      refine iff_of_false (by decide) fun hall => ?_
      rw [hall '0' (List.mem_append_left _ hzero)] at hdigit
      cases hdigit
    · rw [if_neg hradix, decide_eq_false hradix, Bool.false_or, List.nil_append]
      cases n.fraction with
      | none => simp
      | some digits => simp [or_imp, forall_and]
  rw [← hnone, digitFaults]
  cases n.hasDigits with
  | true => simp
  | false => simp

/-- What announces an exponent tells whether it is binary. Behind hexadecimal digits only the letter
of a binary one can. -/
theorem Composed.marker_cases (h : n.Composed) {e : Exponent} (he : n.exponent = some e) :
    e.isBinary = true ∧ (e.marker = 'p' ∨ e.marker = 'P') ∨
      e.isBinary = false ∧ (e.marker = 'e' ∨ e.marker = 'E') ∧ n.radix ≠ .hexadecimal := by
  have hletters := h.announced e.marker (by rw [exponentText, he]; rfl)
  rw [Radix.exponentLetters] at hletters
  rw [Exponent.isBinary]
  split at hletters
  · next hradix =>
    left
    grind
  · next hradix => grind

theorem mem_exponentFaults_iff (h : n.Composed) {i : Nat} {f : Fault} :
    (i, f) ∈ n.exponentFaults ↔
      (∃ e, n.exponent = some e ∧
        (e.isBinary = true ∧ n.radix ≠ .hexadecimal ∧ i = n.mantissa.length ∧
            f = .exponentRequiresHex e.marker ∨
          e.isBinary = false ∧ (n.radix = .octal ∨ n.radix = .binary) ∧ i = n.mantissa.length ∧
            f = .exponentRequiresDecimal e.marker ∨
          (∀ c ∈ e.digits, c.isDigit = false) ∧ i = n.text.length ∧ f = .exponentNoDigits)) ∨
        n.exponent = none ∧ n.radix = .hexadecimal ∧ n.fraction.isSome = true ∧
          i = n.text.length ∧ f = .hexMantissaRequiresExponent := by
  rw [exponentFaults]
  cases he : n.exponent with
  | none =>
    have hend : n.text.length = n.mantissa.length := by simp [text, he]
    by_cases hmissing : n.radix = .hexadecimal ∧ n.fraction.isSome = true
    · simp [hmissing, hend]
    · have hfalse : (decide (n.radix = .hexadecimal) && n.fraction.isSome) = false := by
        simpa using hmissing
      have hnone : ¬ (n.radix = .hexadecimal ∧ n.fraction.isSome = true ∧ i = n.text.length ∧
          f = .hexMantissaRequiresExponent) := fun hall => hmissing ⟨hall.1, hall.2.1⟩
      simp [hfalse, hnone]
  | some e =>
    rcases h.marker_cases he with ⟨hbinary, -⟩ | ⟨hbinary, -, hne⟩
    · simp [hbinary]
    · have hradix : ¬ n.radix = .decimal ∧ ¬ n.radix = .leadingZero ↔
          n.radix = .octal ∨ n.radix = .binary := by
        revert hne
        cases n.radix <;> simp
      simp [hbinary, hradix]

/-- The digit that is told of is the first of the whole part that is too large. -/
theorem find?_exceeds_eq_some_iff (n : Number) {c : Char} {k : Nat} :
    (n.whole.zipIdx.find? fun (c, _) => n.radix.exceeds c) = some (c, k) ↔
      IsLeast {k | ∃ c, n.whole[k]? = some c ∧ n.radix.TooLarge c} k ∧ n.whole[k]? = some c := by
  simpa only [Radix.exceeds_iff_tooLarge] using
    @find?_zipIdx_eq_some_iff _ n.whole n.radix.exceeds c k

theorem mem_rangeFaults_iff (h : n.Composed) {i : Nat} {f : Fault} :
    (i, f) ∈ n.rangeFaults ↔ n.kind = .integer ∧ ∃ k c,
      IsLeast {k | ∃ c, (n.layout h).body[k]? = some c ∧ n.radix.TooLarge c} k ∧
        (n.layout h).body[k]? = some c ∧ i = n.mark.length + k ∧
          f = .invalidDigit c n.radix.numeral := by
  rw [rangeFaults]
  by_cases hkind : n.kind = .integer
  · obtain ⟨hfraction, hexponent⟩ := kind_eq_integer_iff.1 hkind
    -- an integer is all whole part, and its leading zero is never too large
    have hbody : (n.layout h).body = n.leadingZero ++ n.whole := by
      simp [NumberLayout.body, layout, fractionText, exponentText, hfraction, hexponent]
    have hzero : ∀ c ∈ n.leadingZero, ¬ n.radix.TooLarge c := by
      intro c hc
      unfold leadingZero at hc
      split at hc
      · next hradix =>
        rw [h.lead_of_leadingZero hradix, List.mem_singleton] at hc
        rw [hc, ← Radix.exceeds_iff_tooLarge, hradix]
        decide
      · cases hc
    have hlength : n.lead.length = n.mark.length + n.leadingZero.length := by
      rw [lead_eq, List.length_append]
    have hbehind (j : Nat) :
        (n.leadingZero ++ n.whole)[n.leadingZero.length + j]? = n.whole[j]? := by
      rw [List.getElem?_append_right (Nat.le_add_right _ _), Nat.add_sub_cancel_left]
    rw [if_pos hkind, hbody]
    constructor
    · intro hmem
      split at hmem
      · next c index hfound =>
        obtain ⟨hfirst, hc⟩ := (find?_exceeds_eq_some_iff n).1 hfound
        cases List.mem_singleton.1 hmem
        refine ⟨hkind, n.leadingZero.length + index, c,
          (isLeast_getElem?_append_iff hzero).2 ⟨index, hfirst, rfl⟩, (hbehind _).trans hc, ?_, rfl⟩
        omega
      · cases hmem
    · rintro ⟨-, k, c, hfirst, hc, rfl, rfl⟩
      obtain ⟨j, hj, rfl⟩ := (isLeast_getElem?_append_iff hzero).1 hfirst
      rw [hbehind] at hc
      rw [(find?_exceeds_eq_some_iff n).2 ⟨hj, hc⟩, hlength, ← Nat.add_assoc]
      exact List.mem_singleton_self _
  · simp [hkind]

/-- Underscores are looked at from behind the mark on. -/
theorem misplacedSeparator?_of_isMarked {radix : Radix} {mark rest : List Char}
    (h : radix.IsMarked mark rest) :
    misplacedSeparator? (mark ++ rest) =
      findMisplaced? radix.isDigit (if mark = [] then .other else .digit) mark.length rest := by
  cases h with
  | letter h =>
    simp only [List.cons_append, List.nil_append, misplacedSeparator?,
      Radix.ofLetter?_eq_some_iff.2 h]
    rfl
  | leadingZero h =>
    rw [List.nil_append, misplacedSeparator?_of_ofLetter?]
    · rfl
    · rintro letter more heq
      cases heq
      rw [Option.eq_none_iff_forall_ne_some]
      exact fun radix hletter => h letter rfl radix (Radix.ofLetter?_eq_some_iff.1 hletter)
  | decimal h =>
    rw [List.nil_append, misplacedSeparator?_of_ofLetter?]
    · rfl
    · rintro letter more rfl
      exact absurd rfl h

theorem mem_separatorFaults_iff (h : n.Composed) {i : Nat} {f : Fault} :
    (i, f) ∈ n.separatorFaults ↔ ∃ k,
      IsLeast {k | IsMisplaced n.radix.isDigit (n.layout h).before (n.layout h).body k} k ∧
        i = n.mark.length + k ∧ f = .invalidSeparator := by
  have hbefore : (n.layout h).before ≠ .separator := by
    unfold NumberLayout.before
    split <;> decide
  have hfound : misplacedSeparator? n.text = findMisplaced? n.radix.isDigit (n.layout h).before
      n.mark.length (n.layout h).body := by
    rw [← text_layout h]
    exact misplacedSeparator?_of_isMarked (n.layout h).isMarked
  have hmem : (i, f) ∈ n.separatorFaults ↔
      misplacedSeparator? n.text = some i ∧ f = .invalidSeparator := by
    rw [separatorFaults]
    cases misplacedSeparator? n.text with
    | none => simp
    | some k => simp [eq_comm]
  rw [hmem, hfound, findMisplaced?_eq_some_iff n.radix.isDigit_underscore hbefore]
  constructor
  · rintro ⟨⟨k, hk, rfl⟩, rfl⟩
    exact ⟨k, hk, rfl, rfl⟩
  · rintro ⟨k, hk, rfl, rfl⟩
    exact ⟨⟨k, hk, rfl⟩, rfl⟩

/-! ## All faults -/

theorem shows_of_mem_exponentFaults (h : n.Composed) {i : Nat} {f : Fault}
    (hmem : (i, f) ∈ n.exponentFaults) : (n.layout h).Shows n.kind i f := by
  have hmantissa := congrArg List.length (mark_append_mantissa_layout h)
  have htext := congrArg List.length (text_layout h)
  have hexponent : (n.layout h).exponent = n.exponentText := rfl
  rcases (mem_exponentFaults_iff h).1 hmem with
    ⟨e, he, ⟨hbinary, hradix, rfl, rfl⟩ | ⟨hbinary, hradix, rfl, rfl⟩ | ⟨hnone, rfl, rfl⟩⟩ |
      ⟨he, hradix, hpoint, rfl, rfl⟩
  · rw [← hmantissa]
    refine .exponentRequiresHex hradix (by rw [hexponent, exponentText, he]; rfl) ?_
    rcases h.marker_cases he with ⟨-, hmarker⟩ | ⟨hother, -⟩
    · exact hmarker
    · rw [hbinary] at hother
      cases hother
  · rw [← hmantissa]
    refine .exponentRequiresDecimal hradix (by rw [hexponent, exponentText, he]; rfl) ?_
    rcases h.marker_cases he with ⟨hother, -⟩ | ⟨-, hmarker, -⟩
    · rw [hbinary] at hother
      cases hother
    · exact hmarker
  · rw [← htext]
    exact .exponentNoDigits (by rw [hexponent, exponentText, he]; rfl) (h.sign e he) hnone
  · rw [← htext]
    refine .hexMantissaRequiresExponent hradix ?_ (by rw [hexponent, exponentText, he]; rfl)
    rwa [text_layout, h.point_mem_text_iff]

/-- The text of an exponent does not tell a sign that is no digit from what else is none. -/
theorem digits_of_exponentText {e : Exponent} {marker : Char} {sign rest : List Char}
    (htext : e.text = marker :: sign ++ rest) (hsign : sign = [] ∨ sign = ['+'] ∨ sign = ['-'])
    (hnone : ∀ c ∈ rest, c.isDigit = false) : ∀ c ∈ e.digits, c.isDigit = false := by
  intro c hc
  have hmem : c ∈ sign ++ rest := by
    have htail : e.sign ++ e.digits = sign ++ rest := (List.cons.inj htext).2
    rw [← htail]
    exact List.mem_append_right _ hc
  rcases List.mem_append.1 hmem with hc | hc
  · rcases hsign with rfl | rfl | rfl
    · cases hc
    · rw [List.mem_singleton.1 hc]
      decide
    · rw [List.mem_singleton.1 hc]
      decide
  · exact hnone c hc

theorem exists_exponent {n : Number} {marker : Char} {rest : List Char}
    (h : n.exponentText = marker :: rest) :
    ∃ e, n.exponent = some e ∧ e.marker = marker ∧ e.text = marker :: rest := by
  unfold exponentText at h
  cases he : n.exponent with
  | none =>
    rw [he] at h
    cases h
  | some e =>
    rw [he] at h
    exact ⟨e, rfl, (List.cons.inj h).1, h⟩

theorem exponent_eq_none (h : n.exponentText = []) : n.exponent = none := by
  unfold exponentText at h
  cases he : n.exponent with
  | none => rfl
  | some e =>
    rw [he] at h
    cases h

theorem exists_exponent_of_head? {marker : Char} (h : n.exponentText.head? = some marker) :
    ∃ e, n.exponent = some e ∧ e.marker = marker := by
  obtain ⟨rest, hrest⟩ := List.head?_eq_some_iff.1 h
  obtain ⟨e, he, hmarker, -⟩ := exists_exponent hrest
  exact ⟨e, he, hmarker⟩

theorem mem_faults_iff_mem_part {i : Nat} {f : Fault} :
    (i, f) ∈ n.faults ↔ (i, f) ∈ n.pointFaults ∨ (i, f) ∈ n.digitFaults ∨
      (i, f) ∈ n.exponentFaults ∨ (i, f) ∈ n.rangeFaults ∨ (i, f) ∈ n.separatorFaults := by
  simp only [faults, List.mem_append, or_assoc]

/-- Every fault that is found is one that the text tells. -/
theorem shows_of_mem_faults (h : n.Composed) {i : Nat} {f : Fault} (hmem : (i, f) ∈ n.faults) :
    (n.layout h).Shows n.kind i f := by
  rcases mem_faults_iff_mem_part.1 hmem with hmem | hmem | hmem | hmem | hmem
  · obtain ⟨hradix, hpoint, rfl⟩ := (mem_pointFaults_iff h).1 hmem
    exact .invalidRadixPoint hradix (by rwa [text_layout])
  · obtain ⟨hnone, rfl, rfl⟩ := (mem_digitFaults_iff h).1 hmem
    have hmantissa := congrArg List.length (mark_append_mantissa_layout h)
    rw [← hmantissa]
    exact .noDigits hnone
  · exact shows_of_mem_exponentFaults h hmem
  · obtain ⟨hkind, k, c, hfirst, hc, rfl, rfl⟩ := (mem_rangeFaults_iff h).1 hmem
    exact .invalidDigit hkind hfirst hc
  · obtain ⟨k, hfirst, rfl, rfl⟩ := (mem_separatorFaults_iff h).1 hmem
    exact .invalidSeparator hfirst

/-- Every fault that the text tells is found, in the part of the number that it is about. -/
theorem mem_faults_of_shows (h : n.Composed) {i : Nat} {f : Fault}
    (hshows : (n.layout h).Shows n.kind i f) : (i, f) ∈ n.faults := by
  have hmantissa := congrArg List.length (mark_append_mantissa_layout h)
  have htext := congrArg List.length (text_layout h)
  have hexponents (hmem : (i, f) ∈ n.exponentFaults) : (i, f) ∈ n.faults :=
    mem_faults_iff_mem_part.2 (.inr (.inr (.inl hmem)))
  cases hshows with
  | invalidDigit hkind hfirst hc =>
    have hmem := (mem_rangeFaults_iff h).2 ⟨hkind, _, _, hfirst, hc, rfl, rfl⟩
    exact mem_faults_iff_mem_part.2 (.inr (.inr (.inr (.inl hmem))))
  | invalidRadixPoint hradix hpoint =>
    rw [text_layout] at hpoint
    have hmem := (mem_pointFaults_iff h).2 ⟨hradix, hpoint, rfl⟩
    exact mem_faults_iff_mem_part.2 (.inl hmem)
  | noDigits hnone =>
    have hmem := (mem_digitFaults_iff h).2 ⟨hnone, hmantissa, rfl⟩
    exact mem_faults_iff_mem_part.2 (.inr (.inl hmem))
  | exponentRequiresDecimal hradix hexponent hmarker =>
    obtain ⟨e, he, rfl⟩ := exists_exponent_of_head? hexponent
    have hbinary : e.isBinary = false := by
      rcases hmarker with hm | hm <;> simp [Exponent.isBinary, hm]
    exact hexponents ((mem_exponentFaults_iff h).2
      (.inl ⟨e, he, .inr (.inl ⟨hbinary, hradix, hmantissa, rfl⟩)⟩))
  | exponentRequiresHex hradix hexponent hmarker =>
    obtain ⟨e, he, rfl⟩ := exists_exponent_of_head? hexponent
    have hbinary : e.isBinary = true := by
      rcases hmarker with hm | hm <;> simp [Exponent.isBinary, hm]
    exact hexponents ((mem_exponentFaults_iff h).2
      (.inl ⟨e, he, .inl ⟨hbinary, hradix, hmantissa, rfl⟩⟩))
  | exponentNoDigits hexponent hsign hnone =>
    obtain ⟨e, he, -, hetext⟩ := exists_exponent hexponent
    have hdigits := digits_of_exponentText hetext hsign hnone
    exact hexponents ((mem_exponentFaults_iff h).2
      (.inl ⟨e, he, .inr (.inr ⟨hdigits, htext, rfl⟩)⟩))
  | hexMantissaRequiresExponent hradix hpoint hexponent =>
    rw [text_layout, h.point_mem_text_iff] at hpoint
    exact hexponents ((mem_exponentFaults_iff h).2
      (.inr ⟨exponent_eq_none hexponent, hradix, hpoint, htext, rfl⟩))
  | invalidSeparator hfirst =>
    have hmem := (mem_separatorFaults_iff h).2 ⟨_, hfirst, rfl, rfl⟩
    exact mem_faults_iff_mem_part.2 (.inr (.inr (.inr (.inr hmem))))

/-- The faults of a number are those that its text tells. -/
theorem mem_faults_iff (h : n.Composed) {i : Nat} {f : Fault} :
    (i, f) ∈ n.faults ↔ (n.layout h).Shows n.kind i f :=
  ⟨shows_of_mem_faults h, mem_faults_of_shows h⟩

end Number

end Lexis
