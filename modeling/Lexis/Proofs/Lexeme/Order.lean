import Lexis.Proofs.Scanner.Lexeme

/-!
# The order of reports

Reports are not made in the order of their positions: a literal between apostrophes is found fault
with at its start, once its end is known. But those of one kind are, and no two of them show at one
place. `Ordered first last reports` says this of the reports on a stretch of source, and also where
in the stretch a kind of fault can show: at a character of it, or behind one. That is what makes
stretches that follow one another fit together (`Ordered.append`), and with them the readings that
lead over them (`Reading.Leads`).
-/

namespace Lexis

/-! ## Kinds of faults -/

namespace Fault

/-- The faults are of one kind, whatever else they tell. -/
def SameKind (f g : Fault) : Prop :=
  f.ctorIdx = g.ctorIdx

instance (f g : Fault) : Decidable (f.SameKind g) :=
  inferInstanceAs (Decidable (_ = _))

theorem SameKind.symm {f g : Fault} (h : f.SameKind g) : g.SameKind f :=
  Eq.symm h

/-- The fault is of a kind that one of the given faults is of. -/
def IsOneOf (f : Fault) (kinds : List Fault) : Prop :=
  ∃ g ∈ kinds, f.SameKind g

instance (f : Fault) (kinds : List Fault) : Decidable (f.IsOneOf kinds) :=
  inferInstanceAs (Decidable (∃ g ∈ kinds, _))

theorem isOneOf_of_mem {f : Fault} {kinds : List Fault} (h : f ∈ kinds) : f.IsOneOf kinds :=
  ⟨f, h, rfl⟩

theorem IsOneOf.mono {f : Fault} {kinds more : List Fault} (h : f.IsOneOf kinds)
    (hsubset : kinds ⊆ more) : f.IsOneOf more := by
  obtain ⟨g, hg, hkind⟩ := h
  exact ⟨g, hsubset hg, hkind⟩

theorem SameKind.isOneOf {f g : Fault} {kinds : List Fault} (h : f.SameKind g)
    (hg : g.IsOneOf kinds) : f.IsOneOf kinds := by
  obtain ⟨k, hk, hkind⟩ := hg
  exact ⟨k, hk, h.trans hkind⟩

/-- What can be wrong with a character by itself. -/
def ofCharacter : List Fault :=
  [.nulCharacter, .invalidUtf8]

theorem isOneOf_ofCharacter {f : Fault} (h : f.isOfCharacter = true) : f.IsOneOf ofCharacter := by
  cases f with
  | nulCharacter | invalidUtf8 => decide
  | _ => cases h

/-- What shows where that starts which is wrong. All else shows behind something. -/
def atStart : List Fault :=
  [.illegalCharLiteral, .nulCharacter, .invalidUtf8]

end Fault

/-! ## Stretches -/

/-- The report may be made about a stretch of source between two byte offsets. -/
def Report.IsWithin (report : Report) (first last : Nat) : Prop :=
  if report.fault.IsOneOf Fault.atStart then
    first ≤ report.position.offset ∧ report.position.offset < last
  else first < report.position.offset ∧ report.position.offset ≤ last

namespace Report.IsWithin

variable {a b : Report} {first middle last : Nat}

theorem bounds (h : a.IsWithin first last) :
    first ≤ a.position.offset ∧ a.position.offset ≤ last := by
  unfold IsWithin at h
  split at h
  · omega
  · omega

theorem mono (h : a.IsWithin first last) {first' last' : Nat} (hfirst : first' ≤ first)
    (hlast : last ≤ last') : a.IsWithin first' last' := by
  unfold IsWithin at h ⊢
  split at h
  · next hstart =>
    rw [if_pos hstart]
    omega
  · next hstart =>
    rw [if_neg hstart]
    omega

/-- On stretches that follow one another, one kind of fault does not show at one place. -/
theorem lt (ha : a.IsWithin first middle) (hb : b.IsWithin middle last)
    (h : a.fault.SameKind b.fault) : a.position.offset < b.position.offset := by
  unfold IsWithin at ha hb
  by_cases hstart : b.fault.IsOneOf Fault.atStart
  · rw [if_pos hstart] at hb
    rw [if_pos (h.isOneOf hstart)] at ha
    omega
  · rw [if_neg hstart] at hb
    rw [if_neg fun ha => hstart (h.symm.isOneOf ha)] at ha
    omega

end Report.IsWithin

/-- The reports may be made about a stretch of source between two byte offsets, and those of one
kind are in order. -/
structure Ordered (first last : Nat) (reports : List Report) : Prop where
  within : ∀ report ∈ reports, report.IsWithin first last
  growing : reports.Pairwise fun a b =>
    a.fault.SameKind b.fault → a.position.offset < b.position.offset

namespace Ordered

variable {first middle last : Nat} {reports more : List Report}

theorem nil (first last : Nat) : Ordered first last [] where
  within := fun _ h => by cases h
  growing := List.Pairwise.nil

/-- Reports of a stretch and of the next. -/
theorem append (h : Ordered first middle reports) (hmore : Ordered middle last more)
    (hfirst : first ≤ middle) (hlast : middle ≤ last) : Ordered first last (reports ++ more) where
  within := by
    intro report hreport
    rcases List.mem_append.1 hreport with hr | hr
    · exact (h.within report hr).mono (Nat.le_refl _) hlast
    · exact (hmore.within report hr).mono hfirst (Nat.le_refl _)
  growing := by
    rw [List.pairwise_append]
    exact ⟨h.growing, hmore.growing, fun a ha b hb => (h.within a ha).lt (hmore.within b hb)⟩

/-- A report of a kind that has not been made. -/
theorem concat (h : Ordered first last reports) {report : Report}
    (hwithin : report.IsWithin first last)
    (hnew : ∀ other ∈ reports, ¬ other.fault.SameKind report.fault) :
    Ordered first last (reports ++ [report]) where
  within := by
    intro other hother
    rcases List.mem_append.1 hother with ho | ho
    · exact h.within other ho
    · rw [List.mem_singleton.1 ho]
      exact hwithin
  growing := by
    rw [List.pairwise_append]
    refine ⟨h.growing, List.pairwise_singleton _ _, ?_⟩
    intro a ha b hb hkind
    rw [List.mem_singleton.1 hb] at hkind
    exact absurd hkind (hnew a ha)

/-- No report repeats another. -/
theorem distinct (h : Ordered first last reports) :
    reports.Pairwise fun a b => ¬ (a.position = b.position ∧ a.fault.SameKind b.fault) := by
  refine h.growing.imp ?_
  rintro a b hgrowing ⟨hposition, hkind⟩
  have hlt := hgrowing hkind
  rw [hposition] at hlt
  exact Nat.lt_irrefl _ hlt

/-- What is wrong with a character is reported within it. -/
theorem ofCharacter (p : Position) (c : SourceChar) :
    Ordered p.offset (p.next c.char).offset (c.fault?.map (Report.mk p)).toList := by
  cases hfault : c.fault? with
  | none => exact nil _ _
  | some fault =>
    have hkind := Fault.isOneOf_ofCharacter (SourceChar.isOfCharacter_of_fault? hfault)
    have hstart : fault.IsOneOf Fault.atStart := hkind.mono (by decide)
    have hpos := c.char.utf8Size_pos
    have hwithin : (Report.mk p fault).IsWithin p.offset (p.next c.char).offset := by
      rw [Report.IsWithin, if_pos hstart, Position.next_eq_locate]
      simpa using hpos
    exact (nil _ _).concat hwithin fun _ h => by cases h

/-- The faulty characters of a stretch are reported in order. -/
theorem reportsFrom (p : Position) (chunk : List SourceChar) :
    Ordered p.offset (p.locate (plainText chunk)).offset (SourceChar.reportsFrom p chunk) := by
  induction chunk generalizing p with
  | nil => exact nil _ _
  | cons c chunk ih =>
    have hlast : p.locate (plainText (c :: chunk)) = (p.next c.char).locate (plainText chunk) := by
      rw [Position.next_eq_locate, ← Position.locate_append]
      rfl
    rw [SourceChar.reportsFrom_cons, hlast]
    refine (ofCharacter p c).append (ih (p.next c.char)) ?_ ?_
    · rw [Position.next_eq_locate, Position.locate_offset]
      exact Nat.le_add_right _ _
    · rw [Position.locate_offset]
      exact Nat.le_add_right _ _

end Ordered

/-! ## Readings -/

namespace Reading

/-- `s` is what `r` has become by reading on. The reports made meanwhile are of the given kinds, and
in order. -/
structure Leads (kinds : List Fault) (r s : Reading) : Prop where
  le : r.position.offset ≤ s.position.offset
  reports_eq : ∃ made : List Report,
    s.reports.toList = r.reports.toList ++ made ∧
    Ordered r.position.offset s.position.offset made ∧
    ∀ report ∈ made, report.fault.IsOneOf kinds

namespace Leads

variable {kinds more : List Fault} {r s t : Reading}

theorem refl (kinds : List Fault) (r : Reading) : Leads kinds r r where
  le := Nat.le_refl _
  reports_eq := ⟨[], by simp, .nil _ _, fun _ h => by cases h⟩

theorem mono (h : Leads kinds r s) (hsubset : kinds ⊆ more) : Leads more r s where
  le := h.le
  reports_eq := by
    obtain ⟨made, hmade, hordered, hkinds⟩ := h.reports_eq
    exact ⟨made, hmade, hordered, fun report hreport => (hkinds report hreport).mono hsubset⟩

theorem trans (hrs : Leads kinds r s) (hst : Leads kinds s t) : Leads kinds r t where
  le := Nat.le_trans hrs.le hst.le
  reports_eq := by
    obtain ⟨first, hfirst, hordered, hkinds⟩ := hrs.reports_eq
    obtain ⟨second, hsecond, hordered', hkinds'⟩ := hst.reports_eq
    refine ⟨first ++ second, ?_, hordered.append hordered' hrs.le hst.le, ?_⟩
    · rw [hsecond, hfirst, List.append_assoc]
    · intro report hreport
      exact (List.mem_append.1 hreport).elim (hkinds report) (hkinds' report)

/-- A report of a kind that has not been made. -/
theorem reportAt (h : Leads kinds r s) {position : Position} {fault : Fault}
    (hwithin : (Report.mk position fault).IsWithin r.position.offset s.position.offset)
    (hnew : ¬ fault.IsOneOf kinds) : Leads (fault :: kinds) r (s.reportAt position fault) where
  le := h.le
  reports_eq := by
    obtain ⟨made, hmade, hordered, hkinds⟩ := h.reports_eq
    refine ⟨made ++ [⟨position, fault⟩], ?_, hordered.concat hwithin ?_, ?_⟩
    · show (s.reports.push _).toList = _
      rw [Array.toList_push, hmade, List.append_assoc]
    · intro other hother hkind
      exact hnew (hkind.symm.isOneOf (hkinds other hother))
    · intro other hother
      rcases List.mem_append.1 hother with ho | ho
      · exact (hkinds other ho).mono (List.subset_cons_self _ _)
      · rw [List.mem_singleton.1 ho]
        exact Fault.isOneOf_of_mem List.mem_cons_self

/-- A report made here, where something has been read. -/
theorem report (h : Leads kinds r s) (hlt : r.position.offset < s.position.offset) {fault : Fault}
    (hend : ¬ fault.IsOneOf Fault.atStart) (hnew : ¬ fault.IsOneOf kinds) :
    Leads (fault :: kinds) r (s.report fault) := by
  refine h.reportAt ?_ hnew
  rw [Report.IsWithin, if_neg hend]
  exact ⟨hlt, Nat.le_refl _⟩

theorem bumps (r : Reading) (n : Nat) : Leads Fault.ofCharacter r (r.bumps n) where
  le := by
    rw [position, position, bumps_cursor]
    exact r.cursor.offset_advance_le (Nat.zero_le n)
  reports_eq := by
    have hposition : (r.bumps n).position = r.position.locate (plainText (r.rest.take n)) := by
      rw [position, bumps_cursor, Cursor.advance_position]
    refine ⟨SourceChar.reportsFrom r.position (r.rest.take n), r.bumps_reports n, ?_, ?_⟩
    · rw [hposition]
      exact .reportsFrom _ _
    · intro report hreport
      exact Fault.isOneOf_ofCharacter (SourceChar.isOfCharacter_of_mem_reportsFrom hreport)

theorem bump (r : Reading) : Leads Fault.ofCharacter r r.bump :=
  bumps r 1

theorem skip (r : Reading) (n : Nat) : Leads Fault.ofCharacter r (r.skip n) := by
  rw [skip_eq_bumps]
  exact bumps r n

end Leads

/-- Where something is left to read, reading a character gets ahead. -/
theorem offset_lt_bump {r : Reading} (h : r.rest ≠ []) :
    r.position.offset < r.bump.position.offset := by
  rw [position, position, bump_cursor, Cursor.bump_eq_advance]
  exact r.cursor.offset_advance_lt Nat.zero_lt_one (List.length_pos_iff.2 h)

end Reading

end Lexis
