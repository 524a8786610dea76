import Lexis.Proofs.Source.Bytes
import Lexis.Proofs.Source.Offsets
import Lexis.Proofs.Stepwise.Basic
import Lexis.Proofs.Lexeme.CharacterFault

/-!
# Looking at a byte and going over a character

A reading that has come straight from the start of its source (`Reading.Stands`) has a head that
looks at what the reading has still to read: neither looking at a byte or a character nor going over
one ever fails, and a head that goes over a character becomes the head of the reading that did
(`Reading.bump?_head`). So does a head that goes over all characters with a property, if it may go
round once more than there are characters left (`Reading.skipWhile?_head`).
-/

namespace Lexis

/-- The offset of a cursor is listed where the character at the cursor has the property. -/
theorem Source.offset_mem_offsetsOf {s : Source} {n : Nat} {c : SourceChar}
    {more : List SourceChar} (p : SourceChar → Bool) (h : (s.cursor.advance n).rest = c :: more) :
    (s.cursor.advance n).position.offset ∈ s.offsetsOf p ↔ p c = true := by
  have hchars : s.chars = (s.mark ++ s.cursor.rest.take n) ++ c :: more := by
    rw [← h, Cursor.advance_rest, List.append_assoc, List.take_append_drop]
    exact s.chars_eq
  constructor
  · intro hmem
    obtain ⟨before, d, after, hbefore, hd, hoffset⟩ := exists_of_mem_offsetsFrom hmem
    rw [offset_advance, Nat.zero_add] at hoffset
    obtain ⟨-, hcons⟩ := eq_of_byteSize_eq hchars hbefore hoffset
    cases hcons
    exact hd
  · intro hc
    rw [offsetsOf, hchars, offsetsFrom_append, offsetsFrom_cons, if_pos hc, offset_advance,
      Nat.zero_add]
    simp

namespace Cursor

variable {c : Cursor} {d : SourceChar} {more : List SourceChar}

theorem currentChar?_of_rest_eq_nil (h : c.rest = []) : c.currentChar? = none := by
  rw [currentChar?, h]
  rfl

theorem currentChar?_of_rest_eq_cons (h : c.rest = d :: more) : c.currentChar? = some d.char := by
  rw [currentChar?, h]
  rfl

theorem position_bump (h : c.rest = d :: more) : c.bump.position = c.position.next d.char := by
  unfold bump
  rw [h]

theorem source_bump (c : Cursor) : c.bump.source = c.source := by
  unfold bump
  split
  · rfl
  · rfl

end Cursor

namespace Reading

/-- The reading has come straight from the start of its source. -/
def Stands (r : Reading) : Prop :=
  ∃ n, r.cursor = r.cursor.source.cursor.advance n

/-- The head of a reading. -/
def head (r : Reading) : Head :=
  ⟨r.cursor.source, r.position, r.reports⟩

@[simp]
theorem head_reportAt (r : Reading) (p : Position) (f : Fault) :
    r.head.reportAt p f = (r.reportAt p f).head := rfl

@[simp]
theorem head_report (r : Reading) (f : Fault) :
    Stepper.report r.head f = (r.report f).head := rfl

/-- A reading that moves on from where one stands, stands too. -/
theorem Stands.of_cursor_eq {r s : Reading} (h : r.Stands) {n : Nat}
    (hcursor : s.cursor = r.cursor.advance n) : s.Stands := by
  obtain ⟨m, hm⟩ := h
  have hsource : s.cursor.source = r.cursor.source := by
    rw [hcursor]
    rfl
  refine ⟨m + n, ?_⟩
  rw [hsource, ← Cursor.advance_advance, ← hm, hcursor]

theorem Stands.bumps {r : Reading} (h : r.Stands) (n : Nat) : (r.bumps n).Stands :=
  h.of_cursor_eq (r.bumps_cursor n)

theorem Stands.bump {r : Reading} (h : r.Stands) : r.bump.Stands :=
  h.bumps 1

/-! ## Looking -/

variable {r : Reading} {c : SourceChar} {more : List SourceChar}

theorem byte?_head (h : r.Stands) : r.head.byte? = some r.cursor.current := by
  obtain ⟨n, hn⟩ := h
  have hbyte := r.cursor.source.getElem?_padded n
  rw [← hn] at hbyte
  exact hbyte

theorem byteChar?_head (h : r.Stands) :
    r.head.byteChar? = some (Char.ofNat r.cursor.current.toNat) := by
  rw [Head.byteChar?, byte?_head h]
  rfl

theorem atEnd_head (h : r.Stands) : r.head.atEnd = true ↔ r.rest = [] := by
  obtain ⟨n, hn⟩ := h
  have hend := r.cursor.source.size_le_offset_iff n
  rw [← hn] at hend
  rw [Head.atEnd, decide_eq_true_iff]
  exact hend

theorem atEnd_head_of_rest_eq (h : r.Stands) (hrest : r.rest = c :: more) :
    r.head.atEnd = false := by
  cases hend : r.head.atEnd with
  | true =>
    rw [(atEnd_head h).1 hend] at hrest
    cases hrest
  | false => rfl

/-- A head sees the character that its reading is at. -/
theorem char?_head (h : r.Stands) : r.head.char? = some r.cursor.currentChar? := by
  cases hrest : r.rest with
  | nil =>
    rw [Head.char?, if_pos ((atEnd_head h).2 hrest), Cursor.currentChar?_of_rest_eq_nil hrest]
    rfl
  | cons c more =>
    have hchar := Cursor.currentChar?_of_rest_eq_cons hrest
    rw [Head.char?, atEnd_head_of_rest_eq h hrest, byte?_head h, hchar]
    by_cases hlt : r.cursor.current.toNat < 0x80
    · have hc := Cursor.ofNat_current hrest hlt
      simp [hlt, hc]
    · obtain ⟨n, hn⟩ := h
      have hslice := r.cursor.source.slice?_advance_size n
      rw [← Cursor.advance_rest, ← hn] at hslice
      have htext : r.head.source.slice? r.head.position.offset r.head.source.size =
          some (plainText r.rest) := hslice
      simp [hlt, htext, hrest]

/-- A test that only ASCII characters other than NUL pass tells the byte at the head from others as
it does the character. -/
theorem test_current {holds : Char → Bool}
    (hascii : ∀ c, holds c = true → c.toNat < 128 ∧ c ≠ '\x00') :
    holds (Char.ofNat r.cursor.current.toNat) = r.rest.head?.any fun c => holds c.char := by
  cases hrest : r.rest with
  | nil =>
    rw [Cursor.current_of_rest_eq_nil hrest]
    cases hnul : holds '\x00' with
    | true => exact absurd rfl (hascii _ hnul).2
    | false => exact hnul
  | cons c more =>
    by_cases hlt : r.cursor.current.toNat < 128
    · rw [Cursor.ofNat_current hrest hlt]
      rfl
    · have hbyte : holds (Char.ofNat r.cursor.current.toNat) = false := by
        cases hb : holds (Char.ofNat r.cursor.current.toNat) with
        | true =>
          have hnat := Utf8.toNat_ofNat_byte r.cursor.current
          exact absurd (hnat ▸ (hascii _ hb).1) hlt
        | false => rfl
      have hchar : holds c.char = false := by
        cases hc : holds c.char with
        | true => exact absurd ((Cursor.current_lt_iff hrest).2 (hascii _ hc).1) hlt
        | false => rfl
      rw [hbyte]
      exact hchar.symm

/-- A head knows an ASCII character other than NUL by its byte. -/
theorem ofNat_current_eq_iff {d : Char} (hd : d.toNat < 128) (hnul : d ≠ '\x00') :
    Char.ofNat r.cursor.current.toNat = d ↔ ∃ more, r.rest = .valid d :: more := by
  have htest := @test_current r (fun c => c == d) fun c hc => by
    rw [eq_of_beq hc]
    exact ⟨hd, hnul⟩
  rw [← beq_iff_eq, htest]
  cases hrest : r.rest with
  | nil => simp
  | cons c more =>
    rw [List.head?_cons, Option.any_some, beq_iff_eq]
    constructor
    · intro hc
      have hvalid : c = .valid d := by
        refine Lexeme.eq_valid_of_char_eq hc ?_
        rintro rfl
        exact absurd hd (by decide)
      exact ⟨more, by rw [hvalid]⟩
    · rintro ⟨more', hcons⟩
      cases hcons
      rfl

/-! ## Moving -/

/-- The issues of a source tell of the characters that were replaced. -/
theorem hasIssue_head (h : r.Stands) (hrest : r.rest = c :: more) :
    r.head.hasIssue = c.isReplaced := by
  obtain ⟨n, hn⟩ := h
  rw [rest, hn] at hrest
  have hmem := Source.offset_mem_offsetsOf SourceChar.isReplaced hrest
  rw [← hn, ← Source.offsets_issues, List.mem_map] at hmem
  rw [Bool.eq_iff_iff, ← hmem, Head.hasIssue, List.any_eq_true]
  constructor
  · rintro ⟨issue, hissue, htest⟩
    rw [Bool.and_eq_true] at htest
    exact ⟨issue, List.mem_filter.2 ⟨hissue, htest.1⟩, eq_of_beq htest.2⟩
  · rintro ⟨issue, hissue, hposition⟩
    obtain ⟨hissue, hkind⟩ := List.mem_filter.1 hissue
    have hhere : (issue.position == r.head.position.offset) = true := beq_iff_eq.2 hposition
    exact ⟨issue, hissue, Bool.and_eq_true_iff.2 ⟨hkind, hhere⟩⟩

/-- A zero at the head is a NUL that the source holds. -/
theorem current_eq_zero_iff (hrest : r.rest = c :: more) :
    r.cursor.current = 0 ↔ c.isNul = true := by
  constructor
  · intro hzero
    have hc := Cursor.ofNat_current hrest (by rw [hzero]; decide)
    rw [hzero] at hc
    rw [SourceChar.isNul, beq_iff_eq]
    exact Lexeme.eq_valid_of_char_eq hc.symm (by decide)
  · intro hnul
    rw [SourceChar.isNul, beq_iff_eq] at hnul
    have hmem := Cursor.current_mem_encodeChar hrest
    rw [hnul] at hmem
    exact List.mem_singleton.1 hmem

/-- At the end, reading a character changes nothing. -/
theorem bump_of_rest_eq_nil (h : r.rest = []) : r.bump = r := by
  unfold bump Cursor.bump
  simp only [h]
  rfl

/-- Reading a character is reporting it if it is faulty, and moving on. -/
theorem bump_of_rest_eq_cons (h : r.rest = c :: more) :
    r.bump = { c.fault?.elim r r.report with cursor := r.cursor.bump } := by
  unfold bump
  rw [h, List.head?_cons, Option.bind_some]
  cases c.fault? with
  | none => rfl
  | some fault => rfl

/-- What is told of a character leaves a reading where it is. -/
theorem elim_fault?_cursor (r : Reading) (c : SourceChar) :
    (c.fault?.elim r r.report).cursor = r.cursor := by
  cases c.fault? with
  | none => rfl
  | some fault => rfl

/-- Going over a character never fails, and reports what the reading does. -/
theorem bump?_head (h : r.Stands) : r.head.bump? = some r.bump.head := by
  cases hrest : r.rest with
  | nil =>
    rw [Head.bump?, if_pos ((atEnd_head h).2 hrest), bump_of_rest_eq_nil hrest]
    rfl
  | cons c more =>
    have htold : (if r.cursor.current = 0 then r.head.reportAt r.head.position .nulCharacter
        else if r.head.hasIssue then r.head.reportAt r.head.position .invalidUtf8 else r.head) =
        (c.fault?.elim r r.report).head := by
      rw [hasIssue_head h hrest, SourceChar.fault?]
      by_cases hnul : c.isNul = true
      · rw [if_pos ((current_eq_zero_iff hrest).2 hnul), if_pos hnul]
        rfl
      · rw [if_neg (mt (current_eq_zero_iff hrest).1 hnul), if_neg hnul]
        split
        · rfl
        · rfl
    have hstands : (c.fault?.elim r r.report).Stands :=
      h.of_cursor_eq (n := 0) (r.elim_fault?_cursor c)
    rw [Head.bump?, atEnd_head_of_rest_eq h hrest, byte?_head h]
    simp only [Bool.false_eq_true, if_false, Option.bind_eq_bind, Option.bind_some, htold]
    rw [char?_head hstands, elim_fault?_cursor, Cursor.currentChar?_of_rest_eq_cons hrest,
      bump_of_rest_eq_cons hrest]
    simp [head, position, elim_fault?_cursor, Cursor.position_bump hrest, Cursor.source_bump]

/-- Going over the characters with a property is reading them one by one. As many rounds as there
are characters left, and one more, are enough. -/
theorem skipWhile?_head {test : Char → Option Bool} {holds : Char → Bool} {rounds : Nat}
    (htest : ∀ c, test c = some (holds c)) (h : r.Stands) (hrounds : r.rest.length < rounds) :
    Stepper.skipWhile? test rounds r.head =
      some (r.bumps (r.rest.takeWhile fun c => holds c.char).length).head := by
  induction rounds generalizing r with
  | zero => exact absurd hrounds (Nat.not_lt_zero _)
  | succ rounds ih =>
    cases hrest : r.rest with
    | nil =>
      simp [Stepper.skipWhile?, char?_head h, Cursor.currentChar?_of_rest_eq_nil hrest, bumps]
    | cons c more =>
      have hbump : r.bump.rest = more := by rw [bump_rest, hrest, List.drop_one, List.tail_cons]
      rw [hrest, List.length_cons] at hrounds
      have hmore := ih h.bump (by rw [hbump]; omega)
      rw [hbump] at hmore
      have hchar := Cursor.currentChar?_of_rest_eq_cons hrest
      by_cases hc : holds c.char = true
      · simp [Stepper.skipWhile?, char?_head h, hchar, htest, hc, bump?_head h, hmore, bumps]
      · simp [Stepper.skipWhile?, char?_head h, hchar, htest, hc, bumps]

end Reading

end Lexis
