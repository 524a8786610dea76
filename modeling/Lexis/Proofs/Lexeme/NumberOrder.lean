import Lexis.Proofs.Lexeme.NumberLiteral
import Lexis.Proofs.Lexeme.Order

/-!
# The order of the faults of a number

The faults of a number are found part by part and then once more over its whole text, so they are
not in the order of their places. But a number has no two of one kind (`Number.sublist_faultKinds`),
and since it starts with a digit or a radix point, none of them shows at its first character
(`Number.pos_of_mem_faults`).
-/

namespace Lexis

namespace Number

variable {n : Number}

/-- The kinds of faults that a number can have, in the order in which they are looked for. -/
def faultKinds : List Fault :=
  [.invalidRadixPoint .decimal, .noDigits .decimal, .exponentRequiresHex 'p',
    .exponentRequiresDecimal 'e', .hexMantissaRequiresExponent, .exponentNoDigits,
    .invalidDigit '9' .octal, .invalidSeparator]

/-- A number has no two faults of one kind. -/
theorem sublist_faultKinds (n : Number) :
    (n.faults.map fun found => found.2.ctorIdx).Sublist (faultKinds.map Fault.ctorIdx) := by
  have hpoint : (n.pointFaults.map fun found => found.2.ctorIdx).Sublist
      ([.invalidRadixPoint .decimal].map Fault.ctorIdx) := by
    unfold pointFaults
    split <;> simp [Fault.ctorIdx]
  have hdigits : (n.digitFaults.map fun found => found.2.ctorIdx).Sublist
      ([.noDigits .decimal].map Fault.ctorIdx) := by
    unfold digitFaults
    split <;> simp [Fault.ctorIdx]
  have hexponent : (n.exponentFaults.map fun found => found.2.ctorIdx).Sublist
      ([.exponentRequiresHex 'p', .exponentRequiresDecimal 'e', .hexMantissaRequiresExponent,
        .exponentNoDigits].map Fault.ctorIdx) := by
    unfold exponentFaults
    split
    · split <;> split <;> split <;> simp [Fault.ctorIdx]
    · split <;> simp [Fault.ctorIdx]
  have hrange : (n.rangeFaults.map fun found => found.2.ctorIdx).Sublist
      ([.invalidDigit '9' .octal].map Fault.ctorIdx) := by
    unfold rangeFaults
    split
    · split <;> simp [Fault.ctorIdx]
    · exact List.nil_sublist _
  have hseparator : (n.separatorFaults.map fun found => found.2.ctorIdx).Sublist
      ([.invalidSeparator].map Fault.ctorIdx) := by
    unfold separatorFaults
    split <;> simp [Fault.ctorIdx]
  have hall := (((hpoint.append hdigits).append hexponent).append hrange).append hseparator
  simp only [← List.map_append] at hall
  exact hall

/-- No underscore is told of that stands before the place where the walk began, unless it began
behind one. -/
theorem le_of_findMisplaced? {isDigit : Char → Bool} {before : SeparatorContext} {index i : Nat}
    {text : List Char} (h : findMisplaced? isDigit before index text = some i) :
    index ≤ i + 1 ∧ (before ≠ .separator → index ≤ i) := by
  fun_induction findMisplaced? isDigit before index text with
  | case1 index =>
    cases h
    exact ⟨by omega, fun hne => absurd rfl hne⟩
  | case2 => cases h
  | case3 index rest ih =>
    have hle := (ih h).1
    exact ⟨by omega, fun _ => by omega⟩
  | case4 =>
    cases h
    exact ⟨by omega, fun _ => Nat.le_refl _⟩
  | case5 before index c rest hc hdigit ih =>
    have hle := (ih h).2 (by decide)
    exact ⟨by omega, fun _ => by omega⟩
  | case6 =>
    cases h
    exact ⟨by omega, fun hne => absurd rfl hne⟩
  | case7 before index c rest hc hdigit hbefore ih =>
    have hle := (ih h).2 (by decide)
    exact ⟨by omega, fun _ => by omega⟩

/-- An underscore is misplaced that stands behind the first character. -/
theorem misplacedSeparator?_pos {c : Char} {rest : List Char} {i : Nat} (hc : c ≠ '_')
    (h : misplacedSeparator? (c :: rest) = some i) : 0 < i := by
  have hwalk (h : findMisplaced? Char.isDigit .other 0 (c :: rest) = some i) : 0 < i := by
    rw [findMisplaced?, if_neg hc] at h
    split at h
    · exact (le_of_findMisplaced? h).2 (by decide)
    · exact (le_of_findMisplaced? h).2 (by decide)
  unfold misplacedSeparator? at h
  split at h
  · next letter more htext =>
    split at h
    · have hle := (le_of_findMisplaced? h).2 (by decide)
      omega
    · exact hwalk (htext ▸ h)
  · exact hwalk h

/-- What a number can start with. -/
def StartsWith (n : Number) (c : Char) : Prop :=
  (c.isDigit = true ∨ c = '.') ∧ ∃ rest, n.text = c :: rest

theorem StartsWith.mantissa_ne_nil {c : Char} (h : n.StartsWith c) (hcomposed : n.Composed) :
    n.mantissa ≠ [] := by
  intro hnil
  obtain ⟨hc, rest, htext⟩ := h
  -- the number would start with its exponent
  cases hexponent : n.exponent with
  | none =>
    rw [text, hnil, hexponent] at htext
    cases htext
  | some e =>
    rw [text, hnil, hexponent] at htext
    have hmarker := hcomposed.isMarker e hexponent
    have hhead : e.marker = c := (List.cons.inj htext).1
    rw [hhead] at hmarker
    simp only [Exponent.isMarker, Bool.or_eq_true, decide_eq_true_eq] at hmarker
    rcases hmarker with ((rfl | rfl) | rfl) | rfl <;> exact absurd hc (by decide)

theorem Composed.lead_ne_nil (h : n.Composed) (hradix : n.radix ≠ .decimal) : n.lead ≠ [] := by
  rcases h.lead.cases with ⟨hdecimal, -⟩ | ⟨-, hlead, -⟩ | ⟨letter, -, hlead, -⟩
  · exact absurd hdecimal hradix
  · rw [hlead]
    exact List.cons_ne_nil _ _
  · rw [hlead]
    exact List.cons_ne_nil _ _

theorem pos_of_mem_pointFaults (h : n.Composed) {found : Nat × Fault}
    (hfound : found ∈ n.pointFaults) : 0 < found.1 := by
  unfold pointFaults at hfound
  split at hfound
  · next hradix =>
    have hlead := List.length_pos_iff.2 (h.lead_ne_nil fun he => by simp [he] at hradix)
    rw [List.mem_singleton.1 hfound, List.length_append]
    omega
  · cases hfound

theorem pos_of_mem_digitFaults (h : n.mantissa ≠ []) {found : Nat × Fault}
    (hfound : found ∈ n.digitFaults) : 0 < found.1 := by
  unfold digitFaults at hfound
  split at hfound
  · cases hfound
  · rw [List.mem_singleton.1 hfound]
    exact List.length_pos_iff.2 h

/-- What is wrong with an exponent shows behind the mantissa. -/
theorem pos_of_mem_exponentFaults (h : n.mantissa ≠ []) {found : Nat × Fault}
    (hfound : found ∈ n.exponentFaults) : 0 < found.1 := by
  have hmantissa := List.length_pos_iff.2 h
  have htext := Nat.lt_of_lt_of_le hmantissa n.length_mantissa_le
  unfold exponentFaults at hfound
  split at hfound
  · rcases List.mem_append.1 hfound with hmarker | hdigits
    · split at hmarker <;> split at hmarker
      · cases hmarker
      · exact List.mem_singleton.1 hmarker ▸ hmantissa
      · cases hmarker
      · exact List.mem_singleton.1 hmarker ▸ hmantissa
    · split at hdigits
      · cases hdigits
      · exact List.mem_singleton.1 hdigits ▸ htext
  · split at hfound
    · exact List.mem_singleton.1 hfound ▸ hmantissa
    · cases hfound

/-- A decimal digit is not too large for a number without a lead. -/
theorem exceeds_decimal (c : Char) : Radix.decimal.exceeds c = false := by
  cases hdigit : c.isDigit with
  | false => simp [Radix.exceeds, hdigit]
  | true =>
    rw [← Radix.fits_decimal, Radix.fits, Bool.and_eq_true, Bool.not_eq_true'] at hdigit
    exact hdigit.2

theorem pos_of_mem_rangeFaults (h : n.Composed) {found : Nat × Fault}
    (hfound : found ∈ n.rangeFaults) : 0 < found.1 := by
  unfold rangeFaults at hfound
  split at hfound
  · split at hfound
    · next c index hfind =>
      have hexceeds : n.radix.exceeds c = true := by simpa using List.find?_some hfind
      have hlead := List.length_pos_iff.2 (h.lead_ne_nil fun he => by
        rw [he, exceeds_decimal] at hexceeds
        cases hexceeds)
      rw [List.mem_singleton.1 hfound]
      exact Nat.add_pos_left hlead _
    · cases hfound
  · cases hfound

theorem pos_of_mem_separatorFaults {c : Char} (h : n.StartsWith c) {found : Nat × Fault}
    (hfound : found ∈ n.separatorFaults) : 0 < found.1 := by
  unfold separatorFaults at hfound
  split at hfound
  · next i hi =>
    obtain ⟨hc, rest, htext⟩ := h
    rw [htext] at hi
    rw [List.mem_singleton.1 hfound]
    refine misplacedSeparator?_pos ?_ hi
    rintro rfl
    exact absurd hc (by decide)
  · cases hfound

/-- No fault of a number shows at its first character. -/
theorem pos_of_mem_faults {c : Char} (h : n.Composed) (hstarts : n.StartsWith c)
    {found : Nat × Fault} (hfound : found ∈ n.faults) : 0 < found.1 := by
  have hmantissa := hstarts.mantissa_ne_nil h
  simp only [faults, List.mem_append] at hfound
  rcases hfound with (((hf | hf) | hf) | hf) | hf
  · exact pos_of_mem_pointFaults h hf
  · exact pos_of_mem_digitFaults hmantissa hf
  · exact pos_of_mem_exponentFaults hmantissa hf
  · exact pos_of_mem_rangeFaults h hf
  · exact pos_of_mem_separatorFaults hstarts hf

/-- The faults of a number, each reported where it shows, are in order. -/
theorem ordered_faults {c : Char} (h : n.Composed) (hstarts : n.StartsWith c) (p : Position) :
    Ordered p.offset (p.offset + n.text.length)
      (n.faults.map fun (index, fault) => ⟨p.across index, fault⟩) where
  within := by
    intro report hreport
    obtain ⟨found, hfound, rfl⟩ := List.mem_map.1 hreport
    have hpos := pos_of_mem_faults h hstarts hfound
    have hle := (fits_of_mem_faults hfound).1
    have hkind := n.sublist_faultKinds.subset (List.mem_map_of_mem hfound)
    have hnone : ∀ g ∈ Fault.atStart, g.ctorIdx ∉ faultKinds.map Fault.ctorIdx := by decide
    have hbehind : ¬ found.2.IsOneOf Fault.atStart := by
      rintro ⟨g, hg, hsame⟩
      exact hnone g hg (hsame ▸ hkind)
    rw [Report.IsWithin, if_neg hbehind]
    exact ⟨Nat.lt_add_of_pos_right hpos, Nat.add_le_add_left hle _⟩
  growing := by
    have hdistinct : (n.faults.map fun found => found.2.ctorIdx).Nodup :=
      n.sublist_faultKinds.nodup (by decide)
    rw [List.Nodup, List.pairwise_map] at hdistinct
    rw [List.pairwise_map]
    exact hdistinct.imp fun hne hsame => absurd hsame hne

theorem startsWith_read {floats : Bool} {c : SourceChar} {rest : List SourceChar}
    (hc : c.char.isDigit = true ∨ c.char = '.') (hne : (read floats (c :: rest)).text ≠ []) :
    (read floats (c :: rest)).StartsWith c.char := by
  obtain ⟨d, more, htext⟩ := List.exists_cons_of_ne_nil hne
  have hprefix := (begins_read floats (c :: rest)).isPrefix
  rw [htext, List.map_cons, List.cons_prefix_cons] at hprefix
  exact ⟨hc, more, by rw [htext, ← hprefix.1, SourceChar.char_valid]⟩

end Number

end Lexis
