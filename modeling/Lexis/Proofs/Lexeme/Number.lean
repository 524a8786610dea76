import Lexis.Proofs.Lexeme.CharacterFault
import Lexis.Proofs.Source.Beginning

/-!
# The text and the faults of a number

A number is read into parts, and the parts put together are the plain characters that the source
begins with (`Number.begins_read`). Every fault of a number
shows at an index within its text or just behind it (`Number.fits_of_mem_faults`), which is why the
place of a fault can be found by adding the index to the columns of the number.
-/

namespace Lexis

/-! ## Parts of a number -/

namespace Radix

theorem isPlain_of_accepts {radix : Radix} {c : Char} (h : radix.accepts c = true) :
    IsPlain c := by
  simp only [accepts, isDigit, Bool.or_eq_true, beq_iff_eq] at h
  rcases h with h | rfl
  · split at h
    · exact isPlain_of_isHexDigit h
    · exact isPlain_of_isDigit h
  · exact isPlain_of_lt (by decide) (by decide)

theorem begins_run (radix : Radix) (source : List SourceChar) :
    Begins (radix.run source) source :=
  Begins.takeWhile radix.accepts (fun _ => isPlain_of_accepts) source

theorem isPlain_of_ofLetter? {c : Char} {radix : Radix} (h : ofLetter? c = some radix) :
    IsPlain c := by
  have hletter : c = 'x' ∨ c = 'X' ∨ c = 'o' ∨ c = 'O' ∨ c = 'b' ∨ c = 'B' := by
    unfold ofLetter? at h
    split at h
    · next hx =>
      rcases hx with rfl | rfl
      · simp
      · simp
    split at h
    · next ho =>
      rcases ho with rfl | rfl
      · simp
      · simp
    split at h
    · next hb => exact .inr (.inr (.inr (.inr hb)))
    · cases h
  rcases hletter with rfl | rfl | rfl | rfl | rfl | rfl <;>
    exact isPlain_of_lt (by decide) (by decide)

/-- The characters that announce a radix stand at the start. -/
theorem begins_ofLead (source : List SourceChar) : Begins (ofLead source).2 source := by
  have hzero : IsPlain '0' := isPlain_of_lt (by decide) (by decide)
  unfold ofLead
  split
  · split
    · next hletter => exact ((Begins.nil _).cons (isPlain_of_ofLetter? hletter)).cons hzero
    · exact (Begins.nil _).cons hzero
  · exact (Begins.nil _).cons hzero
  · exact Begins.nil _

end Radix

namespace Exponent

theorem isPlain_of_isMarker {c : Char} (h : isMarker c = true) : IsPlain c := by
  simp only [isMarker, Bool.or_eq_true, decide_eq_true_eq] at h
  rcases h with ((rfl | rfl) | rfl) | rfl <;> exact isPlain_of_lt (by decide) (by decide)

/-- The sign at the start of a source: a plus or minus, or nothing. -/
theorem sign_eq_takeWhile (source : List SourceChar) :
    plainText ((source.take 1).filter fun c => c.char = '+' || c.char = '-') =
      plainText ((source.take 1).takeWhile fun c => c.char = '+' || c.char = '-') := by
  cases source with
  | nil => rfl
  | cons c rest =>
    by_cases h : (c.char = '+' || c.char = '-') = true
    · simp [h]
    · simp [h]

theorem isPlain_of_isSign {c : Char} (h : (c = '+' || c = '-') = true) : IsPlain c := by
  simp only [Bool.or_eq_true, decide_eq_true_eq] at h
  rcases h with rfl | rfl <;> exact isPlain_of_lt (by decide) (by decide)

/-- An exponent is read from the start of the source. -/
theorem begins_read? {source : List SourceChar} {e : Exponent} (h : read? source = some e) :
    Begins e.text source := by
  unfold read? at h
  split at h
  · next marker rest =>
    split at h
    · next hmarker =>
      cases h
      -- a sign is taken by filtering a stretch of one character, which is taking from its front
      rw [sign_eq_takeWhile]
      have hsign := Begins.takeWhile (fun c => c = '+' || c = '-') (fun _ => isPlain_of_isSign)
        (rest.take 1)
      have hdigits := (hsign.mono (List.take_prefix 1 rest)).append (Radix.begins_run .decimal _)
      exact hdigits.cons (isPlain_of_isMarker hmarker)
    · cases h
  · cases h

end Exponent

/-! ## The text of a number -/

namespace Number

theorem begins_fractionText {n : Number} (radix : Radix) {source : List SourceChar}
    (h : n.fraction = readFraction? radix source) : Begins n.fractionText source := by
  unfold fractionText
  unfold readFraction? at h
  split at h
  · next rest =>
    rw [h]
    exact (Radix.begins_run radix rest).cons (isPlain_of_lt (by decide) (by decide))
  · rw [h]
    exact Begins.nil _

/-- What the text of a number read from a source has to be, part by part: the mantissa, and then an
exponent where one is read behind it. -/
private theorem begins_text {n : Number} {source : List SourceChar}
    (hlead : Begins (n.lead ++ n.whole) source)
    (hfraction : Begins n.fractionText (source.drop (n.lead ++ n.whole).length))
    (hexponent : n.exponent = none ∨
      n.exponent = Exponent.read? (source.drop n.mantissa.length)) :
    Begins n.text source := by
  have hmantissa : Begins n.mantissa source := hlead.append hfraction
  cases he : n.exponent with
  | none => simpa [text, he] using hmantissa
  | some e =>
    have hread : Exponent.read? (source.drop n.mantissa.length) = some e := by
      rcases hexponent with h | h
      · rw [he] at h
        cases h
      · rw [← h, he]
    have htext : n.text = n.mantissa ++ e.text := by simp [text, he]
    rw [htext]
    exact hmantissa.append (Exponent.begins_read? hread)

/-- A number is what the source begins with, and has only plain characters. -/
theorem begins_read (floats : Bool) (source : List SourceChar) :
    Begins (read floats source).text source := by
  have hlead : Begins ((Radix.ofLead source).2 ++
      (Radix.ofLead source).1.run (source.drop (Radix.ofLead source).2.length)) source :=
    (Radix.begins_ofLead source).append (Radix.begins_run _ _)
  cases floats with
  | false => exact begins_text hlead (Begins.nil _) (.inl rfl)
  | true =>
    refine begins_text hlead ?_ (.inr ?_)
    · apply begins_fractionText (Radix.ofLead source).1
      simp [read, text, mantissa, fractionText]
    · simp [read, text, mantissa, fractionText]

/-! ## The faults of a number -/

theorem lt_of_findMisplaced? {isDigit : Char → Bool} {before : SeparatorContext}
    {index found : Nat} {text : List Char} (hbefore : before = .separator → 0 < index)
    (h : findMisplaced? isDigit before index text = some found) :
    found < index + text.length := by
  induction text generalizing before index with
  | nil =>
    unfold findMisplaced? at h
    split at h
    · next hs =>
      have := hbefore hs
      cases h
      rw [List.length_nil]
      omega
    · cases h
  | cons c text ih =>
    -- the walk goes on from the next index, behind which it is looked for in the rest
    have hnext : ∀ before', findMisplaced? isDigit before' (index + 1) text = some found →
        found < index + (c :: text).length := by
      intro before' h'
      have := ih (fun _ => Nat.succ_pos index) h'
      rw [List.length_cons]
      omega
    unfold findMisplaced? at h
    split at h
    · split at h
      · exact hnext _ h
      · cases h
        rw [List.length_cons]
        omega
    split at h
    · exact hnext _ h
    split at h
    · cases h
      rw [List.length_cons]
      omega
    · exact hnext _ h

theorem lt_of_misplacedSeparator? {text : List Char} {found : Nat}
    (h : misplacedSeparator? text = some found) : found < text.length := by
  unfold misplacedSeparator? at h
  split at h
  · split at h
    · have hlt := lt_of_findMisplaced? (by intro h'; cases h') h
      rw [List.length_cons, List.length_cons]
      omega
    · have hlt := lt_of_findMisplaced? (by intro h'; cases h') h
      rwa [Nat.zero_add] at hlt
  · have hlt := lt_of_findMisplaced? (by intro h'; cases h') h
    rwa [Nat.zero_add] at hlt

theorem length_mantissa_le (n : Number) : n.mantissa.length ≤ n.text.length := by
  rw [text, List.length_append]
  omega

theorem length_whole_le (n : Number) :
    n.lead.length + n.whole.length ≤ n.mantissa.length := by
  rw [mantissa, List.length_append, List.length_append]
  omega

/-- A fault that can be reported with a number: it shows at one of the characters of the number or
just behind the last, and is not about a character as such. -/
def Fits (n : Number) (found : Nat × Fault) : Prop :=
  found.1 ≤ n.text.length ∧ found.2.isOfCharacter = false

variable {n : Number} {found : Nat × Fault}

theorem fits_of_mem_pointFaults (h : found ∈ n.pointFaults) : n.Fits found := by
  have hmantissa := n.length_mantissa_le
  have hwhole := n.length_whole_le
  unfold pointFaults at h
  split at h
  · rw [List.mem_singleton.1 h]
    refine ⟨?_, rfl⟩
    show (n.lead ++ n.whole).length ≤ _
    rw [List.length_append]
    omega
  · cases h

theorem fits_of_mem_digitFaults (h : found ∈ n.digitFaults) : n.Fits found := by
  unfold digitFaults at h
  split at h
  · cases h
  · rw [List.mem_singleton.1 h]
    exact ⟨n.length_mantissa_le, rfl⟩

theorem fits_of_mem_exponentFaults (h : found ∈ n.exponentFaults) : n.Fits found := by
  have hmantissa := n.length_mantissa_le
  unfold exponentFaults at h
  split at h
  · rcases List.mem_append.1 h with h | h
    -- the mantissa does not go with the exponent
    · split at h
      · split at h
        · cases h
        · rw [List.mem_singleton.1 h]
          exact ⟨hmantissa, rfl⟩
      · split at h
        · cases h
        · rw [List.mem_singleton.1 h]
          exact ⟨hmantissa, rfl⟩
    · split at h
      · cases h
      · rw [List.mem_singleton.1 h]
        exact ⟨Nat.le_refl _, rfl⟩
  · split at h
    · rw [List.mem_singleton.1 h]
      exact ⟨hmantissa, rfl⟩
    · cases h

theorem fits_of_mem_rangeFaults (h : found ∈ n.rangeFaults) : n.Fits found := by
  have hmantissa := n.length_mantissa_le
  have hwhole := n.length_whole_le
  unfold rangeFaults at h
  split at h
  · split at h
    · next c index hfind =>
      have hlt := List.snd_lt_of_mem_zipIdx (List.mem_of_find?_eq_some hfind)
      rw [List.mem_singleton.1 h]
      refine ⟨?_, rfl⟩
      show n.lead.length + index ≤ _
      simp only at hlt
      omega
    · cases h
  · cases h

theorem fits_of_mem_separatorFaults (h : found ∈ n.separatorFaults) : n.Fits found := by
  unfold separatorFaults at h
  split at h
  · next hfound =>
    rw [List.mem_singleton.1 h]
    exact ⟨Nat.le_of_lt (lt_of_misplacedSeparator? hfound), rfl⟩
  · cases h

/-- Every fault of a number shows within it. -/
theorem fits_of_mem_faults (h : found ∈ n.faults) : n.Fits found := by
  simp only [faults, List.mem_append] at h
  rcases h with (((h | h) | h) | h) | h
  · exact fits_of_mem_pointFaults h
  · exact fits_of_mem_digitFaults h
  · exact fits_of_mem_exponentFaults h
  · exact fits_of_mem_rangeFaults h
  · exact fits_of_mem_separatorFaults h

end Number

end Lexis
