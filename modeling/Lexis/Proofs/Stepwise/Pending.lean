import Lexis.Proofs.Source.Jumps
import Lexis.Proofs.Stepwise.Skips

/-!
# Keeping track of issues

A head looks through all issues of its source whenever it goes over a character. A tracker knows how
many it has come by and looks on from there, whether it goes over characters one by one
(`Tracker.bump?`) or over many at once (`Tracker.skipTo?`). After any moves, the issues that are
still to come by are those of the characters that are still to be read (`Tracker.Reached.tracks`).
So going to a place at once and going there character by character come to the same, which is
`Tracker.Reached.skipTo?_agrees_with_bumpTo?`. How whole scans are made of
these moves is told in `Lexis.Proofs.Stepwise.Tracking`.
-/

namespace Lexis

/-- A head that keeps track of the issues it has come by, and counts its reports. -/
structure Tracker where
  head : Head
  /-- Number of issues that have been come by. -/
  nextIssue : Nat
  /-- Number of reports made so far, cleared away or not. -/
  errorCount : Nat
deriving DecidableEq, Repr

namespace Tracker

/-- The tracker that has not moved yet. -/
def ofSource (s : Source) : Tracker :=
  ⟨⟨s, s.cursor.position, #[]⟩, 0, 0⟩

/-- The issues that have not been come by. -/
def pending (t : Tracker) : List Issue :=
  t.head.source.issues.drop t.nextIssue

/-- Comes by more issues. -/
def pass (t : Tracker) (count : Nat) : Tracker :=
  { t with nextIssue := t.nextIssue + count }

/-- Reports a fault at a given place. -/
def reportAt (t : Tracker) (position : Position) (fault : Fault) : Tracker :=
  { t with head := t.head.reportAt position fault, errorCount := t.errorCount + 1 }

/-- Moves to a position. -/
def moveTo (t : Tracker) (position : Position) : Tracker :=
  { t with head := { t.head with position := position } }

/-- Clears the reports away. Their number stays. -/
def clear (t : Tracker) : Tracker :=
  { t with head := { t.head with reports := #[] } }

/-! ## Character by character -/

/-- Comes by issues up to the first about ill-formed bytes at an offset, or up to the first behind
it. Tells whether there was one, and how many issues were come by. -/
def takeIssueAt (offset : Nat) : List Issue → Bool × Nat
  | [] => (false, 0)
  | issue :: more =>
    if offset < issue.position then (false, 0)
    else if issue.position = offset ∧ issue.kind = .invalidUtf8 then (true, 1)
    else
      let taken := takeIssueAt offset more
      (taken.1, taken.2 + 1)

/-- Reports what is wrong with the character at the head, which starts with a given byte. -/
def tell (t : Tracker) (b : UInt8) : Tracker :=
  if b = 0 then t.reportAt t.head.position .nulCharacter
  else
    let taken := takeIssueAt t.head.position.offset t.pending
    let after := t.pass taken.2
    if taken.1 then after.reportAt t.head.position .invalidUtf8 else after

/-- Reads one character and reports it if it is faulty. At the end nothing happens. -/
def bump? (t : Tracker) : Option Tracker := do
  if t.head.atEnd then return t
  let told := t.tell (← t.head.byte?)
  match ← told.head.char? with
  | some c => return told.moveTo (told.head.position.next c)
  | none => return told

/-- Reads characters as long as an offset has not been reached, in so many rounds at most. -/
def bumpTo? (stop : Nat) : Nat → Tracker → Option Tracker
  | 0, _ => none
  | rounds + 1, t => do
    if t.head.position.offset < stop then bumpTo? stop rounds (← t.bump?) else return t

/-! ## At once -/

/-- Comes by the issues before an offset, and collects where those about ill-formed bytes from
another offset on are. -/
def takeIssuesBefore (start stop : Nat) : List Issue → List Nat × Nat
  | [] => ([], 0)
  | issue :: more =>
    if stop ≤ issue.position then ([], 0)
    else
      let taken := takeIssuesBefore start stop more
      if start ≤ issue.position ∧ issue.kind = .invalidUtf8 then
        (issue.position :: taken.1, taken.2 + 1)
      else (taken.1, taken.2 + 1)

/-- Reports a fault at an offset, whose position is counted on from another one. -/
def reportFound? (start : Position) (t : Tracker) (found : Nat × Fault) : Option Tracker :=
  (t.head.locate? start found.1).map (t.reportAt · found.2)

/-- Moves to an offset ahead, or to the end if that comes first. -/
def advanceTo? (t : Tracker) (offset : Nat) : Option Tracker :=
  let last := min offset t.head.source.size
  if last ≤ t.head.position.offset then some t
  else (t.head.locate? t.head.position last).map t.moveTo

/-- Goes to an offset, or to the end if that comes first, and reports the faulty characters on the
way. -/
def skipTo? (t : Tracker) (stop : Nat) : Option Tracker := do
  let start := t.head.position
  let text ← t.head.source.slice? start.offset (min stop t.head.source.size)
  let nuls := (Head.offsetsOfByte 0 start.offset (Utf8.bytesOf text)).map (·, Fault.nulCharacter)
  let taken := takeIssuesBefore start.offset stop t.pending
  let invalid := taken.1.map (·, Fault.invalidUtf8)
  let found := (nuls ++ invalid).mergeSort fun a b => a.1 ≤ b.1
  let told ← found.foldlM (reportFound? start) (t.pass taken.2)
  told.advanceTo? stop

/-! ## The trackers that moves lead to -/

/-- A tracker has been made for a source and moved on: over one character, or at once to a place
ahead. Reports may have been added at any place, and cleared away. -/
inductive Reached (s : Source) : Tracker → Prop
  | start : Reached s (ofSource s)
  | bump {t after : Tracker} (h : Reached s t) (hafter : t.bump? = some after) : Reached s after
  | skipTo {t after : Tracker} (h : Reached s t) {stop : Nat} (hstop : s.IsBoundary stop)
    (hahead : t.head.position.offset ≤ stop) (hafter : t.skipTo? stop = some after) :
    Reached s after
  | reportAt {t : Tracker} (h : Reached s t) (position : Position) (fault : Fault) :
    Reached s (t.reportAt position fault)
  | clear {t : Tracker} (h : Reached s t) : Reached s t.clear

end Tracker

/-! ## Issues behind and ahead -/

/-- An issue that lies before an offset and is not about ill-formed bytes. -/
structure Issue.IsBehind (offset : Nat) (issue : Issue) : Prop where
  lt : issue.position < offset
  kind_eq : issue.kind = .byteOrderMark

namespace Source

theorem le_of_mem_invalidFrom {offset : Nat} {chunk : List SourceChar} {issue : Issue}
    (h : issue ∈ invalidFrom offset chunk) : offset ≤ issue.position := by
  have hmem := List.mem_map_of_mem (f := Issue.position) h
  rw [map_position_invalidFrom] at hmem
  exact le_of_mem_offsetsFrom hmem

theorem lt_of_mem_invalidFrom {offset : Nat} {chunk : List SourceChar} {issue : Issue}
    (h : issue ∈ invalidFrom offset chunk) :
    issue.position < offset + byteSize (plainText chunk) := by
  have hmem := List.mem_map_of_mem (f := Issue.position) h
  rw [map_position_invalidFrom] at hmem
  exact lt_of_mem_offsetsFrom hmem

/-- Only a replaced character has an issue of its own. -/
theorem invalidFrom_cons (offset : Nat) (c : SourceChar) (rest : List SourceChar) :
    invalidFrom offset (c :: rest) =
      invalidFrom offset [c] ++ invalidFrom (offset + c.size) rest :=
  invalidFrom_append offset [c] rest

/-- The issues of a source are those of what a cursor made for it has to read, but for one that is
behind the cursor from the start. -/
theorem issues_eq (s : Source) : ∃ behind, s.issues = behind ++
    invalidFrom s.markSize s.cursor.rest ∧ ∀ issue ∈ behind, issue.IsBehind s.markSize := by
  refine ⟨if s.isMarked then [⟨.byteOrderMark, 0, byteOrderMark.utf8Size⟩] else [], ?_, ?_⟩
  · have hmark : invalidFrom 0 s.mark = [] := by
      unfold mark
      split
      · rfl
      · rfl
    rw [issues, chars_eq, invalidFrom_append, hmark, ← markSize_eq, Nat.zero_add, List.nil_append]
  · intro issue hissue
    split at hissue
    · next hmarked =>
      rw [List.mem_singleton] at hissue
      subst hissue
      rw [markSize, if_pos hmarked]
      exact ⟨by decide, rfl⟩
    · cases hissue

end Source

namespace Tracker

variable {base : Nat} {r : Reading} {t : Tracker} {c : SourceChar} {more : List SourceChar}
  {behind ahead : List Issue} {offset : Nat}

@[simp]
theorem pending_pass (t : Tracker) (count : Nat) :
    (t.pass count).pending = t.pending.drop count :=
  List.drop_drop.symm

@[simp]
theorem pending_reportAt (t : Tracker) (p : Position) (f : Fault) :
    (t.reportAt p f).pending = t.pending := rfl

/-- What lies behind is come by at once. -/
theorem takeIssueAt_append (h : ∀ issue ∈ behind, issue.IsBehind offset) :
    takeIssueAt offset (behind ++ ahead) =
      ((takeIssueAt offset ahead).1, behind.length + (takeIssueAt offset ahead).2) := by
  induction behind with
  | nil => simp
  | cons issue behind ih =>
    have hissue := (h issue List.mem_cons_self).lt
    have hmore := ih fun other hother => h other (List.mem_cons_of_mem _ hother)
    rw [List.cons_append, takeIssueAt, if_neg (by omega), if_neg (by omega), hmore,
      List.length_cons]
    simp only [Prod.mk.injEq, true_and]
    omega

/-- Where the character at the offset was replaced, its issue is taken, and otherwise none is. -/
theorem takeIssueAt_invalidFrom (offset : Nat) (c : SourceChar) (more : List SourceChar) :
    takeIssueAt offset (Source.invalidFrom offset (c :: more)) =
      (c.isReplaced, (Source.invalidFrom offset [c]).length) := by
  have hc := c.size_pos
  cases c with
  | valid c =>
    rw [Source.invalidFrom_cons]
    cases hrest : Source.invalidFrom (offset + (SourceChar.valid c).size) more with
    | nil => rfl
    | cons issue rest =>
      have hle : offset + (SourceChar.valid c).size ≤ issue.position :=
        Source.le_of_mem_invalidFrom (hrest ▸ List.mem_cons_self)
      have hlt : offset < issue.position := by
        omega
      exact if_pos hlt
  | replaced bytes =>
    rw [Source.invalidFrom, takeIssueAt, if_neg (Nat.lt_irrefl _), if_pos ⟨rfl, rfl⟩]
    rfl

/-- The issues before an offset are come by, and those about ill-formed bytes collected. -/
theorem takeIssuesBefore_append {start stop : Nat}
    (hbehind : ∀ issue ∈ behind, issue.position < stop)
    (hahead : ∀ issue ∈ ahead, stop ≤ issue.position) :
    takeIssuesBefore start stop (behind ++ ahead) =
      ((behind.filter fun issue => start ≤ issue.position ∧ issue.kind = .invalidUtf8).map
        Issue.position, behind.length) := by
  induction behind with
  | nil =>
    cases ahead with
    | nil => rfl
    | cons issue ahead => exact if_pos (hahead issue List.mem_cons_self)
  | cons issue behind ih =>
    have hissue := hbehind issue List.mem_cons_self
    have hmore := ih fun other hother => hbehind other (List.mem_cons_of_mem _ hother)
    rw [List.cons_append, takeIssuesBefore, if_neg (by omega), hmore, List.filter_cons]
    by_cases htaken : start ≤ issue.position ∧ issue.kind = .invalidUtf8
    · simp [htaken]
    · simp [htaken]

/-! ## A tracker and its reading -/

/-- A tracker stands where a reading does and made the same reports, `base` having been cleared
away, and what lies ahead of it are the issues of the characters that the reading has still to
read. -/
structure Tracks (base : Nat) (r : Reading) (t : Tracker) : Prop where
  stands : r.Stands
  head_eq : t.head = r.head
  errorCount_eq : t.errorCount = base + r.reports.size
  pending_eq : ∃ behind, t.pending = behind ++ Source.invalidFrom r.position.offset r.rest ∧
    ∀ issue ∈ behind, issue.IsBehind r.position.offset

/-- Of the pending issues, those about ill-formed bytes are those of the characters ahead. -/
theorem Tracks.filter_pending (h : Tracks base r t) :
    t.pending.filter (·.kind == .invalidUtf8) =
      Source.invalidFrom r.position.offset r.rest := by
  obtain ⟨behind, hpending, hbehind⟩ := h.pending_eq
  have hnone : behind.filter (·.kind == .invalidUtf8) = [] := by
    rw [List.filter_eq_nil_iff]
    intro issue hissue
    rw [(hbehind issue hissue).kind_eq]
    decide
  have hall : (Source.invalidFrom r.position.offset r.rest).filter (·.kind == .invalidUtf8) =
      Source.invalidFrom r.position.offset r.rest := by
    rw [List.filter_eq_self]
    intro issue hissue
    rw [Source.kind_of_mem_invalidFrom hissue]
    rfl
  rw [hpending, List.filter_append, hnone, hall, List.nil_append]

theorem tracks_ofSource (s : Source) : Tracks 0 (.ofCursor s.cursor) (ofSource s) where
  stands := ⟨0, rfl⟩
  head_eq := rfl
  errorCount_eq := rfl
  pending_eq := s.issues_eq

theorem Tracks.reportAt (h : Tracks base r t) (p : Position) (f : Fault) :
    Tracks base (r.reportAt p f) (t.reportAt p f) where
  stands := h.stands
  head_eq := congrArg (Head.reportAt · p f) h.head_eq
  errorCount_eq := by
    show t.errorCount + 1 = base + (r.reports.push _).size
    rw [h.errorCount_eq, Array.size_push, Nat.add_assoc]
  pending_eq := h.pending_eq

theorem Tracks.clear (h : Tracks base r t) :
    Tracks t.errorCount { r with reports := #[] } t.clear where
  stands := h.stands
  head_eq := congrArg (fun head : Head => { head with reports := #[] }) h.head_eq
  errorCount_eq := rfl
  pending_eq := h.pending_eq

/-! ### One character -/

/-- What is told of a character is what the reading reports, and its issue is no longer pending. -/
theorem Tracks.tell (h : Tracks base r t) (hrest : r.rest = c :: more) :
    (t.tell r.cursor.current).head = (c.fault?.elim r r.report).head ∧
      (t.tell r.cursor.current).errorCount = base + (c.fault?.elim r r.report).reports.size ∧
      ∃ behind, (t.tell r.cursor.current).pending =
          behind ++ Source.invalidFrom (r.position.offset + c.size) more ∧
        ∀ issue ∈ behind, issue.IsBehind r.position.offset := by
  obtain ⟨behind, hpending, hbehind⟩ := h.pending_eq
  rw [hrest] at hpending
  have hposition : t.head.position = r.position := congrArg Head.position h.head_eq
  have htaken : takeIssueAt t.head.position.offset t.pending =
      (c.isReplaced, (behind ++ Source.invalidFrom r.position.offset [c]).length) := by
    rw [hposition, hpending, takeIssueAt_append hbehind, takeIssueAt_invalidFrom,
      List.length_append]
  have hdrop : t.pending.drop (behind ++ Source.invalidFrom r.position.offset [c]).length =
      Source.invalidFrom (r.position.offset + c.size) more := by
    rw [hpending, Source.invalidFrom_cons _ c more, ← List.append_assoc, List.drop_left]
  rw [Tracker.tell, SourceChar.fault?]
  by_cases hnul : c.isNul = true
  · rw [if_pos ((Reading.current_eq_zero_iff hrest).2 hnul), if_pos hnul, hposition]
    have htracks := h.reportAt r.position .nulCharacter
    refine ⟨htracks.head_eq, htracks.errorCount_eq, behind, ?_, hbehind⟩
    -- a NUL is a character of the source, so it has no issue
    rw [SourceChar.isNul, beq_iff_eq] at hnul
    rw [pending_reportAt, hpending, hnul]
    rfl
  · rw [if_neg (mt (Reading.current_eq_zero_iff hrest).1 hnul), if_neg hnul, htaken, hposition]
    cases c.isReplaced with
    | true =>
      have htracks := h.reportAt r.position .invalidUtf8
      refine ⟨htracks.head_eq, htracks.errorCount_eq, [], ?_, List.forall_mem_nil _⟩
      rw [List.nil_append, ← hdrop]
      exact pending_pass t _
    | false =>
      refine ⟨h.head_eq, h.errorCount_eq, [], ?_, List.forall_mem_nil _⟩
      rw [List.nil_append, ← hdrop]
      exact pending_pass t _

/-- Going over a character tells of it and moves to where the reading is after it. -/
theorem Tracks.bump?_eq (h : Tracks base r t) (hrest : r.rest = c :: more) :
    t.bump? = some ((t.tell r.cursor.current).moveTo (r.position.next c.char)) := by
  have hhead := (h.tell hrest).1
  have hstands : (c.fault?.elim r r.report).Stands :=
    h.stands.of_cursor_eq (n := 0) (r.elim_fault?_cursor c)
  have hbyte : t.head.byte? = some r.cursor.current := by
    rw [h.head_eq]
    exact Reading.byte?_head h.stands
  have hend : t.head.atEnd = false := by
    rw [h.head_eq]
    exact Reading.atEnd_head_of_rest_eq h.stands hrest
  have hchar : (t.tell r.cursor.current).head.char? = some (some c.char) := by
    rw [hhead, Reading.char?_head hstands, Reading.elim_fault?_cursor,
      Cursor.currentChar?_of_rest_eq_cons hrest]
  have hhere : (t.tell r.cursor.current).head.position = r.position := by
    rw [hhead]
    exact congrArg Cursor.position (r.elim_fault?_cursor c)
  simp [bump?, hend, hbyte, hchar, hhere]

/-- Going over a character is reading it. -/
theorem Tracks.bump (h : Tracks base r t) : ∃ after, t.bump? = some after ∧
    Tracks base r.bump after := by
  cases hrest : r.rest with
  | nil =>
    have hend : t.head.atEnd = true := by
      rw [h.head_eq]
      exact (Reading.atEnd_head h.stands).2 hrest
    rw [Reading.bump_of_rest_eq_nil hrest]
    exact ⟨t, by simp [bump?, hend], h⟩
  | cons c more =>
    obtain ⟨hhead, hcount, behind, hpending, hbehind⟩ := h.tell hrest
    have hbump := Reading.bump_of_rest_eq_cons hrest
    have hnext : r.bump.position = r.position.next c.char := by
      rw [hbump]
      exact Cursor.position_bump hrest
    have hrestNext : r.bump.rest = more := by
      rw [Reading.bump_rest, hrest]
      rfl
    refine ⟨_, h.bump?_eq hrest, h.stands.bump, ?_, ?_, behind, ?_, ?_⟩
    · rw [hbump]
      simp [moveTo, hhead, Reading.head, Reading.position, Reading.elim_fault?_cursor,
        Cursor.source_bump, Cursor.position_bump hrest]
    · rw [hbump]
      exact hcount
    · rw [hrestNext, hnext, Position.next_eq_locate]
      exact hpending
    · rw [hnext, Position.next_eq_locate]
      intro issue hissue
      obtain ⟨hlt, hkind⟩ := hbehind issue hissue
      exact ⟨Nat.lt_of_lt_of_le hlt (Nat.le_add_right _ _), hkind⟩

/-! ### Many characters -/

/-- Going over characters one by one is reading them one by one. -/
theorem Tracks.bumpTo? (h : Tracks base r t) {n rounds : Nat} (hn : n ≤ r.rest.length)
    (hrounds : n < rounds) :
    ∃ after, t.bumpTo? (r.cursor.advance n).position.offset rounds = some after ∧
      Tracks base (r.bumps n) after := by
  have hposition : t.head.position = r.position := congrArg Head.position h.head_eq
  induction n generalizing r t rounds with
  | zero =>
    obtain ⟨rounds, rfl⟩ := Nat.exists_eq_add_of_lt hrounds
    refine ⟨t, ?_, h⟩
    rw [Tracker.bumpTo?, hposition, Cursor.advance_zero, if_neg (Nat.lt_irrefl _)]
    rfl
  | succ n ih =>
    obtain ⟨rounds, rfl⟩ := Nat.exists_eq_add_of_lt hrounds
    have hlt : t.head.position.offset < (r.cursor.advance (n + 1)).position.offset := by
      rw [hposition]
      exact r.cursor.offset_advance_lt (Nat.succ_pos n) (Nat.lt_of_lt_of_le (Nat.succ_pos n) hn)
    obtain ⟨next, hnext, htracks⟩ := h.bump
    have hlength : r.bump.rest.length = r.rest.length - 1 := by
      rw [Reading.bump_rest, List.length_drop]
    have hrest : n ≤ r.bump.rest.length := by
      omega
    have henough : n < n + 1 + rounds := by
      omega
    obtain ⟨after, hafter, hfinal⟩ := ih htracks hrest henough
      (congrArg Head.position htracks.head_eq)
    rw [Reading.bump_cursor, Cursor.bump_eq_advance, Cursor.advance_advance, Nat.add_comm 1 n]
      at hafter
    refine ⟨after, ?_, hfinal⟩
    rw [Tracker.bumpTo?, if_pos hlt, hnext]
    exact hafter

/-- Makes reports. -/
def record (t : Tracker) (reports : List Report) : Tracker :=
  { t with
    head := { t.head with reports := t.head.reports ++ reports }
    errorCount := t.errorCount + reports.length }

/-- Faults that are found are reported one after the other, where they are counted on to. -/
theorem foldlM_reportFound? {start : Position} {found : List (Nat × Fault)} {reports : List Report}
    (h : found.mapM (fun f => (t.head.locate? start f.1).map (Report.mk · f.2)) = some reports) :
    found.foldlM (reportFound? start) t = some (t.record reports) := by
  induction found generalizing t reports with
  | nil =>
    cases h
    simp [record]
  | cons f found ih =>
    rw [List.mapM_cons] at h
    obtain ⟨report, hreport, h⟩ := Option.bind_eq_some_iff.1 h
    obtain ⟨more, hmore, h⟩ := Option.bind_eq_some_iff.1 h
    obtain ⟨position, hposition, rfl⟩ := Option.map_eq_some_iff.1 hreport
    cases h
    have hone : (t.reportAt position f.2).record more = t.record (⟨position, f.2⟩ :: more) := by
      simp [record, reportAt, Head.reportAt, Nat.add_assoc, Nat.add_comm 1]
    rw [List.foldlM_cons, reportFound?, hposition, ← hone]
    exact ih hmore

/-- The issues about the characters up to a place are come by, and no others. -/
theorem Tracks.takeIssuesBefore (h : Tracks base r t) (n : Nat) :
    ∃ count, takeIssuesBefore r.head.position.offset (r.cursor.advance n).position.offset
        t.pending =
        (offsetsFrom SourceChar.isReplaced r.position.offset (r.rest.take n), count) ∧
      t.pending.drop count =
        Source.invalidFrom (r.cursor.advance n).position.offset (r.rest.drop n) := by
  obtain ⟨behind, hpending, hbehind⟩ := h.pending_eq
  have hsplit : t.pending = (behind ++ Source.invalidFrom r.position.offset (r.rest.take n)) ++
      Source.invalidFrom (r.cursor.advance n).position.offset (r.rest.drop n) := by
    rw [Reading.offset_advance_eq, List.append_assoc, ← Source.invalidFrom_append,
      List.take_append_drop, hpending]
  have hnone : behind.filter (fun issue =>
      r.head.position.offset ≤ issue.position ∧ issue.kind = .invalidUtf8) = [] := by
    rw [List.filter_eq_nil_iff]
    intro issue hissue
    simp [(hbehind issue hissue).kind_eq]
  have hall : (Source.invalidFrom r.position.offset (r.rest.take n)).filter (fun issue =>
      r.head.position.offset ≤ issue.position ∧ issue.kind = .invalidUtf8) =
      Source.invalidFrom r.position.offset (r.rest.take n) := by
    rw [List.filter_eq_self]
    intro issue hissue
    rw [decide_eq_true_iff]
    exact ⟨Source.le_of_mem_invalidFrom hissue, Source.kind_of_mem_invalidFrom hissue⟩
  refine ⟨(behind ++ Source.invalidFrom r.position.offset (r.rest.take n)).length, ?_, ?_⟩
  · rw [hsplit, takeIssuesBefore_append, List.filter_append, hnone, hall, List.nil_append,
      Source.map_position_invalidFrom]
    · intro issue hissue
      rw [Reading.offset_advance_eq]
      rcases List.mem_append.1 hissue with hissue | hissue
      · have := (hbehind issue hissue).lt
        omega
      · exact Source.lt_of_mem_invalidFrom hissue
    · intro issue hissue
      exact Source.le_of_mem_invalidFrom hissue
  · rw [hsplit, List.drop_left]

/-- Moving to a place ahead never fails. -/
theorem advanceTo?_eq (hstands : r.Stands) (hsource : t.head.source = r.head.source)
    (hposition : t.head.position = r.head.position) (n : Nat) :
    t.advanceTo? (r.cursor.advance n).position.offset =
      some (t.moveTo (r.cursor.advance n).position) := by
  have hlast : min (r.cursor.advance n).position.offset r.head.source.size =
      (r.cursor.advance n).position.offset :=
    Nat.min_eq_left (Reading.offset_advance_le_size hstands n)
  have hlocate : t.head.locate? r.head.position (r.cursor.advance n).position.offset =
      r.head.locate? r.head.position (r.cursor.advance n).position.offset := by
    rw [Head.locate?, Head.locate?, hsource]
  have hmove := Reading.locate?_head_unless hstands n
  simp only [advanceTo?, hsource, hposition, hlast, hlocate]
  split
  · next hle =>
    rw [if_pos hle] at hmove
    rw [← Option.some.inj hmove, ← hposition]
    rfl
  · next hle =>
    rw [if_neg hle] at hmove
    rw [hmove]
    rfl

/-- Going over characters at once is skipping them. -/
theorem Tracks.skipTo? (h : Tracks base r t) (n : Nat) :
    ∃ after, t.skipTo? (r.cursor.advance n).position.offset = some after ∧
      Tracks base (r.skip n) after := by
  obtain ⟨count, htaken, hdrop⟩ := h.takeIssuesBefore n
  have hhead := h.head_eq
  have hlast : min (r.cursor.advance n).position.offset r.head.source.size =
      (r.cursor.advance n).position.offset :=
    Nat.min_eq_left (Reading.offset_advance_le_size h.stands n)
  have hslice : r.head.source.slice? r.head.position.offset
      (r.cursor.advance n).position.offset = some (plainText (r.rest.take n)) :=
    Reading.slice?_head h.stands n
  have hfound : ((Head.offsetsOfByte 0 r.head.position.offset
        (Utf8.bytesOf (plainText (r.rest.take n)))).map (·, Fault.nulCharacter) ++
      (offsetsFrom SourceChar.isReplaced r.position.offset (r.rest.take n)).map
        (·, Fault.invalidUtf8)).mergeSort (fun a b => a.1 ≤ b.1) =
      r.head.faultsUpTo (r.cursor.advance n).position.offset (plainText (r.rest.take n)) := by
    rw [Head.faultsUpTo, ← Reading.issues_head h.stands]
    rfl
  obtain ⟨reports, hreports, hskip⟩ : ∃ reports : List Report,
      (r.head.faultsUpTo (r.cursor.advance n).position.offset (plainText (r.rest.take n))).mapM
          (fun found => (r.head.locate? r.head.position found.1).map (Report.mk · found.2)) =
        some reports ∧ r.skip n = ⟨r.cursor.advance n, r.reports ++ reports⟩ :=
    ⟨_, Reading.mapM_faultsUpTo_head h.stands n, rfl⟩
  have hpassed : (t.pass count).head = r.head := hhead
  have hreported := foldlM_reportFound? (t := t.pass count) (hpassed ▸ hreports)
  rw [hpassed] at hreported
  refine ⟨((t.pass count).record reports).moveTo (r.cursor.advance n).position, ?_, ?_⟩
  · rw [Tracker.skipTo?]
    simp only [hhead, hlast, hslice, Option.bind_eq_bind, Option.bind_some, htaken, hfound,
      hreported]
    exact advanceTo?_eq h.stands (by rw [← hpassed]; rfl) (by rw [← hpassed]; rfl) n
  · rw [hskip]
    refine ⟨h.stands.of_cursor_eq rfl, ?_, ?_, [], ?_, List.forall_mem_nil _⟩
    · simp only [moveTo, record, hpassed]
      rfl
    · simp [moveTo, record, pass, h.errorCount_eq, Nat.add_assoc, ← Array.length_toList]
    · rw [List.nil_append]
      exact (pending_pass t count).trans hdrop

/-! ## Wherever a tracker has got to -/

/-- A place between two characters ahead is where the reading comes to behind some of them. -/
theorem Tracks.exists_offset_eq (h : Tracks base r t) {stop : Nat}
    (hstop : r.cursor.source.IsBoundary stop) (hahead : t.head.position.offset ≤ stop) :
    ∃ n ≤ r.rest.length, (r.cursor.advance n).position.offset = stop := by
  obtain ⟨m, hm⟩ := h.stands
  have hposition : t.head.position = r.position := congrArg Head.position h.head_eq
  rw [hposition, Reading.position, hm] at hahead
  obtain ⟨n, hn, hoffset⟩ := Source.exists_offset_advance_add hstop hahead
  rw [← Cursor.advance_advance, ← hm] at hoffset
  rw [← hm] at hn
  exact ⟨n, hn, hoffset⟩

/-- Every tracker that moves lead to stands where a reading does. -/
theorem Reached.tracks {s : Source} (h : Reached s t) :
    ∃ base r, r.cursor.source = s ∧ Tracks base r t := by
  induction h with
  | start => exact ⟨0, .ofCursor s.cursor, rfl, tracks_ofSource s⟩
  | bump _ hafter ih =>
    obtain ⟨base, r, hsource, htracks⟩ := ih
    obtain ⟨next, hnext, hnextTracks⟩ := htracks.bump
    rw [hafter] at hnext
    cases hnext
    refine ⟨base, r.bump, ?_, hnextTracks⟩
    rw [Reading.bump_cursor, Cursor.source_bump, hsource]
  | skipTo _ hstop hahead hafter ih =>
    obtain ⟨base, r, hsource, htracks⟩ := ih
    obtain ⟨n, -, rfl⟩ := htracks.exists_offset_eq (hsource ▸ hstop) hahead
    obtain ⟨next, hnext, hnextTracks⟩ := htracks.skipTo? n
    rw [hafter] at hnext
    cases hnext
    exact ⟨base, r.skip n, hsource, hnextTracks⟩
  | reportAt _ position fault ih =>
    obtain ⟨base, r, hsource, htracks⟩ := ih
    exact ⟨base, r.reportAt position fault, hsource, htracks.reportAt position fault⟩
  | clear _ ih =>
    obtain ⟨base, r, hsource, htracks⟩ := ih
    exact ⟨_, { r with reports := #[] }, hsource, htracks.clear⟩

/-- From wherever it has got to, going to a place ahead at once and going there character by
character never fail, and come to the same head with the same reports, as many of them counted, and
with the same ill-formed bytes still to come by. So do the two ways of reading that far. -/
theorem Reached.skipTo?_agrees_with_bumpTo? {s : Source} (h : Reached s t) {stop : Nat}
    (hstop : s.IsBoundary stop) (hahead : t.head.position.offset ≤ stop) :
    ∃ skipped, t.skipTo? stop = some skipped ∧ skipped.head.position.offset = stop ∧
      (∀ rounds, s.size < rounds → ∃ stepped, t.bumpTo? stop rounds = some stepped ∧
        skipped.head = stepped.head ∧ skipped.errorCount = stepped.errorCount ∧
        skipped.pending.filter (·.kind == .invalidUtf8) =
          stepped.pending.filter (·.kind == .invalidUtf8)) ∧
      ∃ r : Reading, r.Stands ∧ r.head = t.head ∧
        ∃ n, (r.skip n).head = skipped.head ∧ (r.bumps n).head = skipped.head := by
  obtain ⟨base, r, rfl, htracks⟩ := h.tracks
  obtain ⟨n, hn, rfl⟩ := htracks.exists_offset_eq hstop hahead
  obtain ⟨skipped, hskipped, hskip⟩ := htracks.skipTo? n
  have hsame := r.skip_eq_bumps n
  refine ⟨skipped, hskipped, ?_, ?_, r, htracks.stands, htracks.head_eq.symm, n,
    hskip.head_eq.symm, ?_⟩
  · rw [hskip.head_eq]
    rfl
  · intro rounds hrounds
    have hlength : r.rest.length ≤ r.cursor.source.size := by
      have hsize := Reading.size_eq_offset htracks.stands
      have hall := length_le_byteSize (plainText r.rest)
      rw [Reading.offset_advance_eq, List.take_length] at hsize
      rw [length_plainText] at hall
      omega
    have henough : n < rounds := Nat.lt_of_le_of_lt (Nat.le_trans hn hlength) hrounds
    obtain ⟨stepped, hstepped, hstep⟩ := htracks.bumpTo? hn henough
    rw [← hsame] at hstep
    refine ⟨stepped, hstepped, ?_, ?_, ?_⟩
    · rw [hskip.head_eq, hstep.head_eq]
    · rw [hskip.errorCount_eq, hstep.errorCount_eq]
    · rw [hskip.filter_pending, hstep.filter_pending]
  · rw [← hsame, hskip.head_eq]

/-- Over ill-formed bytes, a line end and a NUL, behind a byte order mark and one more character. -/
theorem Reached.skipTo?_agrees_with_bumpTo?_over_faults :
    let s : Source :=
      ⟨[.valid Source.byteOrderMark, .valid 'a', .replaced [0xFF], .valid '\n', .valid '\x00',
        .replaced [0xFF]]⟩
    let t : Tracker := ⟨⟨s, ⟨4, 1, 2⟩, #[]⟩, 1, 0⟩
    Reached s t ∧ s.IsBoundary 9 ∧ ∃ skipped, t.skipTo? 9 = some skipped ∧
      skipped.head.position = ⟨9, 2, 2⟩ ∧
      skipped.head.reports = #[⟨⟨4, 1, 2⟩, .invalidUtf8⟩, ⟨⟨8, 2, 1⟩, .nulCharacter⟩] ∧
      skipped.errorCount = 2 ∧
      skipped.pending.filter (·.kind == .invalidUtf8) = [⟨.invalidUtf8, 9, 1⟩] := by
  intro s t
  have hreached : Reached s t := .bump .start (by decide +kernel)
  have hstop : s.IsBoundary 9 := by decide +kernel
  obtain ⟨skipped, hskipped, -, hsteps, -⟩ :=
    Reached.skipTo?_agrees_with_bumpTo? hreached hstop (by decide)
  obtain ⟨stepped, hstepped, hhead, hcount, hpending⟩ := hsteps 13 (by decide +kernel)
  have hexplicit : t.bumpTo? 9 13 = some ⟨⟨s, ⟨9, 2, 2⟩,
      #[⟨⟨4, 1, 2⟩, .invalidUtf8⟩, ⟨⟨8, 2, 1⟩, .nulCharacter⟩]⟩, 2, 2⟩ := by decide +kernel
  cases hexplicit.symm.trans hstepped
  refine ⟨hreached, hstop, skipped, hskipped, ?_, ?_, hcount, ?_⟩
  · rw [hhead]
  · rw [hhead]
  · rw [hpending]
    decide +kernel

end Tracker

end Lexis
