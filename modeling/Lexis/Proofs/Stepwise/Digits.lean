import Lexis.Proofs.Lexeme.NumberReading
import Lexis.Proofs.Lexeme.Passage
import Lexis.Proofs.Stepwise.Skips

/-!
# Runs of digits step by step

The characters of a number are plain, so going over them reports nothing (`Reading.ahead`) and what
is reported of the number is told apart from it, by the index of the character where it shows
(`Reading.tell`). A head that goes over a run of digits remembers three things about it
(`Stepper.Seen`): whether there was a digit, whether there was an underscore, and the first digit
that is too large (`Reading.digits?_head`). Underscores are checked afterwards, in a walk over the
bytes of the number by index, which stays within them (`Stepper.misplacedSeparator?_bytesOf`).
-/

namespace Lexis

theorem IsPlain.lt {c : Char} (h : IsPlain c) : c.toNat < 128 := by
  have hsize := Char.utf8Size_eq_one_iff.1 h.1
  have hle : c.val.toNat ≤ 127 := UInt32.le_iff_toNat_le.1 hsize
  exact Nat.lt_succ_of_le hle

theorem Position.next_eq_across {c : Char} (h : IsPlain c) (p : Position) :
    p.next c = p.across 1 := by
  rw [next_eq_locate, locate_eq_across (List.forall_mem_singleton.2 h)]
  rfl

theorem Position.across_across (p : Position) (m n : Nat) :
    (p.across m).across n = p.across (m + n) := by
  simp [across, Nat.add_assoc]

namespace Reading

variable {r : Reading}

/-! ## Going ahead and telling faults -/

/-- The reading that has come `n` characters further and reported nothing. -/
def ahead (r : Reading) (n : Nat) : Reading :=
  { r with cursor := r.cursor.advance n }

/-- Reports faults, each at the character of the given index in plain text that starts at `p`. -/
def tell (r : Reading) (p : Position) (faults : List (Nat × Fault)) : Reading :=
  faults.foldl (fun after (index, fault) => after.reportAt (p.across index) fault) r

theorem consumeNumber_eq_tell (r : Reading) (n : Number) :
    r.consumeNumber n = (r.bumps n.text.length).tell r.position n.faults := rfl

@[simp]
theorem tell_nil (r : Reading) (p : Position) : r.tell p [] = r := rfl

theorem tell_append (r : Reading) (p : Position) (a b : List (Nat × Fault)) :
    r.tell p (a ++ b) = (r.tell p a).tell p b :=
  List.foldl_append

@[simp]
theorem tell_cursor (r : Reading) (p : Position) (faults : List (Nat × Fault)) :
    (r.tell p faults).cursor = r.cursor := by
  induction faults generalizing r with
  | nil => rfl
  | cons found faults ih => exact ih _

theorem ahead_ahead (r : Reading) (m n : Nat) : (r.ahead m).ahead n = r.ahead (m + n) := by
  rw [ahead, ahead, ahead, Cursor.advance_advance]

theorem ahead_zero (r : Reading) : r.ahead 0 = r := by
  rw [ahead, Cursor.advance, List.take_zero, plainText_nil, Position.locate_nil, List.drop_zero]

/-- What is told does not depend on how far the reading has come. -/
theorem ahead_tell (r : Reading) (p : Position) (faults : List (Nat × Fault)) (n : Nat) :
    (r.tell p faults).ahead n = (r.ahead n).tell p faults := by
  induction faults generalizing r with
  | nil => rfl
  | cons found faults ih => exact ih _

theorem rest_ahead (r : Reading) (n : Nat) : (r.ahead n).rest = r.rest.drop n := rfl

theorem Stands.ahead (h : r.Stands) (n : Nat) : (r.ahead n).Stands :=
  h.of_cursor_eq rfl

theorem Stands.tell (h : r.Stands) (p : Position) (faults : List (Nat × Fault)) :
    (r.tell p faults).Stands :=
  h.of_cursor_eq (n := 0) (by rw [tell_cursor, ← ahead_zero r]; rfl)

/-- A fault that shows where the reading has come to in plain text. -/
theorem report_tell {text : List Char} (h : Begins text r.rest) {k : Nat} (hk : k ≤ text.length)
    (faults : List (Nat × Fault)) (fault : Fault) :
    ((r.ahead k).tell r.position faults).report fault =
      (r.ahead k).tell r.position (faults ++ [(k, fault)]) := by
  have hposition : ((r.ahead k).tell r.position faults).position = r.position.across k := by
    rw [position, tell_cursor]
    exact advance_position_eq_across h hk
  rw [report, hposition, tell_append]
  rfl

/-- Going over a character without a fault reports nothing. -/
theorem bump_eq_ahead {c : Char} {more : List SourceChar} (hrest : r.rest = .valid c :: more)
    (hc : c ≠ '\x00') : r.bump = r.ahead 1 := by
  have hfault : (SourceChar.valid c).fault? = none := by
    simp [SourceChar.fault?, SourceChar.isNul, SourceChar.isReplaced, hc]
  unfold bump
  simp only [hrest, List.head?_cons, Option.bind_some, hfault, Cursor.bump_eq_advance]
  rfl

/-- Going over plain text reports nothing. -/
theorem bumps_eq_ahead {text : List Char} (h : Begins text r.rest)
    (htext : ∀ c ∈ text, c ≠ '\x00') : r.bumps text.length = r.ahead text.length := by
  induction text generalizing r with
  | nil => exact r.ahead_zero.symm
  | cons c text ih =>
    obtain ⟨hc, hmore⟩ := List.forall_mem_cons.1 htext
    obtain ⟨rest, hrest⟩ := h.isPrefix
    have hbump := bump_eq_ahead hrest.symm hc
    have hbegins : Begins text r.bump.rest := by
      constructor
      · rw [bump_rest, ← hrest]
        exact ⟨rest, rfl⟩
      · exact (List.forall_mem_cons.1 h.isPlain).2
    rw [List.length_cons, bumps, ih hbegins hmore, hbump, ahead_ahead, Nat.add_comm]

end Reading

/-! ## What is seen of a run -/

namespace Stepper.Seen

/-- What has been seen after a run that starts at `p`. -/
def addRun (seen : Seen) (radix : Radix) (p : Position) : List Char → Seen
  | [] => seen
  | c :: run => (seen.add radix c p).addRun radix (p.across 1) run

/-- The first digit of a run that is too large, with its index from a given one on. -/
def firstExceeding? (radix : Radix) (index : Nat) (run : List Char) : Option (Char × Nat) :=
  (run.zipIdx index).find? fun (c, _) => radix.exceeds c

/-- Of a run is seen whether it has digits and whether it has underscores, and the first digit that
is too large, unless one has been seen before. -/
theorem addRun_eq {radix : Radix} {run : List Char} (h : ∀ c ∈ run, radix.accepts c = true)
    (seen : Seen) (p : Position) (index : Nat) :
    seen.addRun radix (p.across index) run =
      ⟨seen.digit || run.any radix.isDigit, seen.separator || run.contains '_',
        seen.exceeding.or ((firstExceeding? radix index run).map fun (c, i) => (c, p.across i))⟩ := by
  induction run generalizing seen index with
  | nil => simp [addRun, firstExceeding?]
  | cons c run ih =>
    obtain ⟨hc, hrun⟩ := List.forall_mem_cons.1 h
    rw [addRun, Position.across_across, ih hrun]
    by_cases hsep : c = '_'
    · subst hsep
      simp [Seen.add, firstExceeding?, Radix.isDigit_underscore, Radix.exceeds_underscore]
    · have hdigit : radix.isDigit c = true := (Radix.accepts_iff.1 hc).resolve_right hsep
      by_cases hexceeds : radix.exceeds c = true
      · simp [Seen.add, firstExceeding?, hsep, Ne.symm hsep, hdigit, hexceeds]
      · simp [Seen.add, firstExceeding?, hsep, Ne.symm hsep, hdigit, hexceeds]

theorem addRun_digit {radix : Radix} {run : List Char} (h : ∀ c ∈ run, radix.accepts c = true)
    (seen : Seen) (p : Position) :
    (seen.addRun radix p run).digit = (seen.digit || run.any radix.isDigit) :=
  congrArg Seen.digit (addRun_eq h seen p 0)

theorem addRun_separator {radix : Radix} {run : List Char}
    (h : ∀ c ∈ run, radix.accepts c = true) (seen : Seen) (p : Position) :
    (seen.addRun radix p run).separator = (seen.separator || run.contains '_') :=
  congrArg Seen.separator (addRun_eq h seen p 0)

end Stepper.Seen

namespace Reading

variable {r : Reading}

/-- Only ASCII characters are read as digits or underscores. -/
theorem ascii_of_accepts (radix : Radix) (c : Char) (h : radix.accepts c = true) :
    c.toNat < 128 ∧ c ≠ '\x00' := by
  refine ⟨(Radix.isPlain_of_accepts h).lt, ?_⟩
  rintro rfl
  cases radix <;> exact absurd h (by decide)

/-- Going over a run of digits. As many rounds as there are characters left, and one more, are
enough. -/
theorem digits?_head (radix : Radix) {rounds : Nat} (seen : Stepper.Seen) (h : r.Stands)
    (hrounds : r.rest.length < rounds) :
    Stepper.digits? radix rounds seen r.head =
      some (seen.addRun radix r.position (radix.run r.rest),
        (r.ahead (radix.run r.rest).length).head) := by
  induction rounds generalizing r seen with
  | zero => exact absurd hrounds (Nat.not_lt_zero _)
  | succ rounds ih =>
    have htest := test_current (r := r) (ascii_of_accepts radix)
    rw [Stepper.digits?, Head.head_eq, byteChar?_head h]
    simp only [Option.bind_eq_bind, Option.bind_some, htest, Head.bump?_eq]
    cases hrest : r.rest with
    | nil =>
      simp [Radix.run, Stepper.Seen.addRun, ahead_zero]
    | cons c more =>
      rw [List.head?_cons, Option.any_some]
      rw [hrest, List.length_cons] at hrounds
      by_cases hc : radix.accepts c.char = true
      · have hplain := Radix.isPlain_of_accepts hc
        have hvalid := SourceChar.eq_valid_of_isPlain hplain
        have hchar : Char.ofNat r.cursor.current.toNat = c.char :=
          Cursor.ofNat_current hrest ((Cursor.current_lt_iff hrest).2 hplain.lt)
        have hbump : r.bump = r.ahead 1 := by
          rw [hvalid] at hrest
          exact bump_eq_ahead hrest (ascii_of_accepts radix _ hc).2
        have hmore : (r.ahead 1).rest = more := by rw [rest_ahead, hrest]; rfl
        have hposition : (r.ahead 1).position = r.position.across 1 := by
          show (r.cursor.advance 1).position = _
          rw [← Cursor.bump_eq_advance, Cursor.position_bump hrest,
            Position.next_eq_across hplain]
        have hrun : radix.run (c :: more) = c.char :: radix.run more := by
          rw [Radix.run, List.takeWhile_cons, if_pos hc, plainText_cons]
          rfl
        have hih := ih (seen.add radix c.char r.position) (h.ahead 1) (by rw [hmore]; omega)
        rw [hmore, hposition, ahead_ahead, Nat.add_comm] at hih
        rw [if_pos hc, bump?_head h, hbump, hchar, hrun]
        exact hih
      · rw [if_neg hc, Radix.run_cons_of_not_accepts (Bool.eq_false_iff.2 hc)]
        rw [List.length_nil, ahead_zero]
        rfl

/-- A head knows the letter that asks for a radix by its byte. -/
theorem ofLetter?_current :
    Radix.ofLetter? (Char.ofNat r.cursor.current.toNat) =
      r.rest.head?.bind fun c => Radix.ofLetter? c.char := by
  have hascii : ∀ c, (Radix.ofLetter? c).isSome = true → c.toNat < 128 ∧ c ≠ '\x00' := by
    intro c hc
    obtain ⟨radix, hradix⟩ := Option.isSome_iff_exists.1 hc
    refine ⟨(Radix.isPlain_of_ofLetter? hradix).lt, ?_⟩
    rintro rfl
    cases hradix
  have htest := test_current (r := r) hascii
  cases hrest : r.rest with
  | nil =>
    rw [Cursor.current_of_rest_eq_nil hrest]
    rfl
  | cons c more =>
    rw [hrest, List.head?_cons, Option.any_some] at htest
    rw [List.head?_cons, Option.bind_some]
    by_cases hlt : r.cursor.current.toNat < 128
    · rw [Cursor.ofNat_current hrest hlt]
    -- a byte above 127 is no letter, and neither is the character that it belongs to
    · cases hc : Radix.ofLetter? c.char with
      | some radix =>
        exact absurd ((Cursor.current_lt_iff hrest).2 (Radix.isPlain_of_ofLetter? hc).lt) hlt
      | none =>
        rw [hc, Option.isSome_none, Option.isSome_eq_false_iff, Option.isNone_iff_eq_none] at htest
        exact htest

/-- What follows a leading zero: a letter that asks for a radix, or anything else. -/
theorem ofLead_behind_zero {more : List SourceChar} (hrest : r.rest = .valid '0' :: more) :
    Radix.ofLetter? (Char.ofNat (r.ahead 1).cursor.current.toNat) = none ∧
        Radix.ofLead r.rest = (.leadingZero, ['0']) ∨
      ∃ radix letter rest, Radix.ofLetter? letter = some radix ∧
        (r.ahead 1).rest = .valid letter :: rest ∧
        Radix.ofLetter? (Char.ofNat (r.ahead 1).cursor.current.toNat) = some radix ∧
        Radix.ofLead r.rest = (radix, ['0', letter]) := by
  have hmore : (r.ahead 1).rest = more := by rw [rest_ahead, hrest]; rfl
  have hcurrent := @ofLetter?_current (r.ahead 1)
  rw [hmore] at hcurrent ⊢
  rw [hcurrent, hrest]
  cases more with
  | nil => exact .inl ⟨rfl, rfl⟩
  | cons c rest =>
    rw [List.head?_cons, Option.bind_some]
    cases hradix : Radix.ofLetter? c.char with
    | none =>
      refine .inl ⟨rfl, ?_⟩
      cases c with
      | valid letter =>
        rw [SourceChar.char_valid] at hradix
        rw [Radix.ofLead, hradix]
      | replaced bytes => rfl
    | some radix =>
      have hc := SourceChar.eq_valid_of_isPlain (Radix.isPlain_of_ofLetter? hradix)
      refine .inr ⟨radix, c.char, rest, hradix, by rw [← hc], rfl, ?_⟩
      rw [hc, Radix.ofLead, SourceChar.char_valid, hradix]

/-- The mark of a radix is read by its bytes. -/
theorem lead?_head (h : r.Stands) :
    Stepper.lead? r.head =
      some ((Radix.ofLead r.rest).1,
        ⟨(Radix.ofLead r.rest).1 = .leadingZero, false, none⟩,
        (r.ahead (Radix.ofLead r.rest).2.length).head) := by
  have hzero := @ofNat_current_eq_iff r '0' (by decide) (by decide)
  rw [Stepper.lead?, Head.head_eq, byteChar?_head h]
  simp only [Option.bind_eq_bind, Option.bind_some, Head.head_eq, Head.bump?_eq]
  by_cases hbyte : Char.ofNat r.cursor.current.toNat = '0'
  · obtain ⟨more, hrest⟩ := hzero.1 hbyte
    have hbump : r.bump = r.ahead 1 := bump_eq_ahead hrest (by decide)
    rw [if_pos hbyte, bump?_head h, hbump, Option.bind_some, byteChar?_head (h.ahead 1),
      Option.bind_some]
    rcases ofLead_behind_zero hrest with
      ⟨hletter, hlead⟩ | ⟨radix, letter, rest, hradix, hnext, hletter, hlead⟩
    · rw [hletter, hlead]
      rfl
    · have hnul : letter ≠ '\x00' := by
        rintro rfl
        cases hradix
      have htwo : (r.ahead 1).bump = r.ahead 2 := by
        rw [bump_eq_ahead hnext hnul, ahead_ahead]
      simp only [hletter, hlead, bump?_head (h.ahead 1), Option.bind_some, htwo,
        decide_eq_false (Radix.ne_of_ofLetter? hradix).2]
      rfl
  · have hlead : Radix.ofLead r.rest = (.decimal, []) := by
      unfold Radix.ofLead
      split
      · next letter rest hrest => exact absurd (hzero.2 ⟨_, hrest⟩) hbyte
      · next rest _ hrest => exact absurd (hzero.2 ⟨_, hrest⟩) hbyte
      · rfl
    rw [if_neg hbyte, hlead, List.length_nil, ahead_zero]
    rfl

end Reading

/-! ## Underscores -/

namespace Stepper

variable {text : List Char}

theorem length_bytesOf_of_isPlain (h : ∀ c ∈ text, IsPlain c) :
    (Utf8.bytesOf text).length = text.length := by
  rw [Utf8.bytesOf_of_ascii fun c hc => (h c hc).lt, List.length_map]

/-- The bytes of plain text are its characters. -/
theorem getElem?_bytesOf (h : ∀ c ∈ text, IsPlain c) {index : Nat} (hindex : index < text.length) :
    ∃ b, (Utf8.bytesOf text)[index]? = some b ∧ Char.ofNat b.toNat = text[index] := by
  have hlt := (h _ (List.getElem_mem hindex)).lt
  refine ⟨UInt8.ofNat text[index].toNat, ?_, ?_⟩
  · rw [Utf8.bytesOf_of_ascii fun c hc => (h c hc).lt, List.getElem?_map,
      List.getElem?_eq_getElem hindex]
    rfl
  · rw [UInt8.toNat_ofNat', Nat.mod_eq_of_lt (by omega), Char.ofNat_toNat]

/-- The walk over the bytes of plain text stays within them, and finds what the walk over the
characters does. -/
theorem findMisplaced?_bytesOf (h : ∀ c ∈ text, IsPlain c) (isDigit : Char → Bool) {rounds : Nat}
    {before : SeparatorContext} {index : Nat} (hindex : index ≤ text.length)
    (hrounds : text.length - index < rounds) (hbefore : before = .separator → 1 ≤ index) :
    findMisplaced? isDigit (Utf8.bytesOf text) rounds before index =
      some (Number.findMisplaced? isDigit before index (text.drop index)) := by
  induction rounds generalizing before index with
  | zero => exact absurd hrounds (Nat.not_lt_zero _)
  | succ rounds ih =>
    have hminus (n : Nat) (hn : 1 ≤ n) : minus? n 1 = some (n - 1) := if_pos hn
    rw [findMisplaced?, length_bytesOf_of_isPlain h]
    by_cases hlt : index < text.length
    · obtain ⟨b, hb, hc⟩ := getElem?_bytesOf h hlt
      have hnext (context : SeparatorContext) :
          findMisplaced? isDigit (Utf8.bytesOf text) rounds context (index + 1) =
            some (Number.findMisplaced? isDigit context (index + 1) (text.drop (index + 1))) :=
        ih hlt (by omega) fun _ => Nat.succ_pos index
      rw [if_pos hlt, hb, List.drop_eq_getElem_cons hlt, Number.findMisplaced?]
      simp only [Option.bind_eq_bind, Option.bind_some, hc, hnext]
      split
      · split
        · rfl
        · rfl
      split
      · rfl
      split
      · next hsep =>
        rw [hminus index (hbefore hsep)]
        rfl
      · rfl
    · have hend : index = text.length := by omega
      rw [if_neg hlt, hend, List.drop_length, Number.findMisplaced?]
      split
      · next hsep =>
        rw [hminus text.length (hend ▸ hbefore hsep)]
        rfl
      · rfl

/-- The first misplaced underscore of a number is found among its bytes. -/
theorem misplacedSeparator?_bytesOf (h : ∀ c ∈ text, IsPlain c) {rounds : Nat}
    (hrounds : text.length < rounds) :
    misplacedSeparator? rounds (Utf8.bytesOf text) = some (Number.misplacedSeparator? text) := by
  have hwalk (hletter : ∀ letter rest, text = '0' :: letter :: rest →
      Radix.ofLetter? letter = none) :
      findMisplaced? Char.isDigit (Utf8.bytesOf text) rounds .other 0 =
        some (Number.misplacedSeparator? text) := by
    rw [Number.misplacedSeparator?_of_ofLetter? hletter]
    exact findMisplaced?_bytesOf h Char.isDigit (Nat.zero_le _) (by omega) fun hsep => by cases hsep
  rw [misplacedSeparator?, length_bytesOf_of_isPlain h]
  match text with
  | [] => exact hwalk fun _ _ heq => by cases heq
  | [c] => exact hwalk fun _ _ heq => by cases heq
  | c :: letter :: rest =>
    have hlong : ¬ (c :: letter :: rest).length < 2 := by simp
    obtain ⟨first, hfirst, hc⟩ := getElem?_bytesOf h (show 0 < _ by simp)
    obtain ⟨second, hsecond, hletter⟩ := getElem?_bytesOf h (show 1 < _ by simp)
    have hbyte : first = 0x30 ↔ c = '0' := by
      constructor
      · rintro rfl
        exact hc.symm
      · rintro rfl
        exact UInt8.toNat_inj.1 ((Utf8.toNat_ofNat_byte first).symm.trans (congrArg Char.toNat hc))
    rw [List.getElem_cons_succ, List.getElem_cons_zero] at hletter
    rw [if_neg hlong, hfirst, hsecond]
    simp only [Option.bind_eq_bind, Option.bind_some, hbyte, hletter]
    by_cases hzero : c = '0'
    · subst hzero
      rw [if_pos rfl]
      cases hradix : Radix.ofLetter? letter with
      | none =>
        refine hwalk fun _ _ heq => ?_
        cases heq
        exact hradix
      | some radix =>
        rw [Number.misplacedSeparator?, hradix]
        exact findMisplaced?_bytesOf h radix.isDigit (by simp) (by omega) fun hsep => by cases hsep
    · rw [if_neg hzero]
      refine hwalk fun _ _ heq => ?_
      cases heq
      exact absurd rfl hzero

end Stepper

end Lexis
