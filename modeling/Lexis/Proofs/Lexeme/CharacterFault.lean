import Mathlib.Data.List.Perm.Basic
import Lexis.Lexeme.Reading
import Lexis.Proofs.Source.Movement

/-!
# Faulty characters

A NUL and a character that stands for bytes that are no UTF-8 are faulty wherever they stand.
`SourceChar.reportsFrom` lists the reports that a stretch of source is to give rise to, one for each
faulty character. Searching a stretch for one kind of fault after the other and sorting what was
found comes to the same list (`SourceChar.faultsWithin_eq`), so reading a stretch at once reports
what reading it character by character does (`Reading.skip_eq_bumps`).
-/

namespace Lexis

/-- A fault that a character has by itself, whatever it is read as. -/
def Fault.isOfCharacter : Fault → Bool
  | nulCharacter => true
  | invalidUtf8 => true
  | _ => false

namespace SourceChar

theorem isOfCharacter_of_fault? {c : SourceChar} {fault : Fault} (h : c.fault? = some fault) :
    fault.isOfCharacter = true := by
  unfold fault? at h
  split at h
  · cases h
    rfl
  split at h
  · cases h
    rfl
  · cases h

/-- The reports of the faulty characters of a stretch of source that starts at a position. -/
def reportsFrom (p : Position) : List SourceChar → List Report
  | [] => []
  | c :: rest => (c.fault?.map (Report.mk p)).toList ++ reportsFrom (p.next c.char) rest

@[simp]
theorem reportsFrom_nil (p : Position) : reportsFrom p [] = [] := rfl

theorem reportsFrom_cons (p : Position) (c : SourceChar) (rest : List SourceChar) :
    reportsFrom p (c :: rest) =
      (c.fault?.map (Report.mk p)).toList ++ reportsFrom (p.next c.char) rest := rfl

theorem reportsFrom_append (p : Position) (a b : List SourceChar) :
    reportsFrom p (a ++ b) = reportsFrom p a ++ reportsFrom (p.locate (plainText a)) b := by
  induction a generalizing p with
  | nil => rfl
  | cons c a ih =>
    have hnext : (p.next c.char).locate (plainText a) = p.locate (plainText (c :: a)) := by
      rw [Position.next_eq_locate, ← Position.locate_append]
      rfl
    rw [List.cons_append, reportsFrom_cons, reportsFrom_cons, ih, List.append_assoc, hnext]

/-- Each of the reports is about a faulty character of the stretch, and made where that stands. -/
theorem of_mem_reportsFrom {p : Position} {chunk : List SourceChar} {report : Report}
    (h : report ∈ reportsFrom p chunk) :
    ∃ k c fault, chunk[k]? = some c ∧ c.fault? = some fault ∧
      report = ⟨p.locate (plainText (chunk.take k)), fault⟩ := by
  induction chunk generalizing p with
  | nil => cases h
  | cons c chunk ih =>
    rw [reportsFrom_cons, List.mem_append] at h
    rcases h with h | h
    · rw [Option.mem_toList, Option.map_eq_some_iff] at h
      obtain ⟨fault, hfault, rfl⟩ := h
      exact ⟨0, c, fault, rfl, hfault, rfl⟩
    · obtain ⟨k, d, fault, hd, hfault, rfl⟩ := ih h
      refine ⟨k + 1, d, fault, hd, hfault, ?_⟩
      rw [Position.next_eq_locate, ← Position.locate_append]
      rfl

/-- All faults that are reported here are faults of characters. -/
theorem isOfCharacter_of_mem_reportsFrom {p : Position} {chunk : List SourceChar} {report : Report}
    (h : report ∈ reportsFrom p chunk) : report.fault.isOfCharacter = true := by
  obtain ⟨k, c, fault, -, hfault, rfl⟩ := of_mem_reportsFrom h
  exact isOfCharacter_of_fault? hfault

/-- Each of the reports is made at a place within the stretch. -/
theorem position_of_mem_reportsFrom {p : Position} {chunk : List SourceChar} {report : Report}
    (h : report ∈ reportsFrom p chunk) :
    ∃ k < chunk.length, report.position = p.locate (plainText (chunk.take k)) := by
  obtain ⟨k, c, fault, hc, -, rfl⟩ := of_mem_reportsFrom h
  exact ⟨k, (List.getElem?_eq_some_iff.1 hc).1, rfl⟩

/-! ## Searching for one kind of fault after the other -/

/-- The faulty characters of a stretch, by index from a given one on, in one search. -/
def faultsFrom (index : Nat) : List SourceChar → List (Nat × Fault)
  | [] => []
  | c :: rest => (c.fault?.map (index, ·)).toList ++ faultsFrom (index + 1) rest

theorem faultsFrom_cons (index : Nat) (c : SourceChar) (rest : List SourceChar) :
    faultsFrom index (c :: rest) =
      (c.fault?.map (index, ·)).toList ++ faultsFrom (index + 1) rest := rfl

theorem le_of_mem_faultsFrom {index : Nat} {chunk : List SourceChar} {found : Nat × Fault}
    (h : found ∈ faultsFrom index chunk) : index ≤ found.1 := by
  induction chunk generalizing index with
  | nil => cases h
  | cons c chunk ih =>
    rw [faultsFrom_cons, List.mem_append] at h
    rcases h with h | h
    · rw [Option.mem_toList, Option.map_eq_some_iff] at h
      obtain ⟨fault, -, rfl⟩ := h
      exact Nat.le_refl _
    · have := ih h
      omega

/-- One search finds the faults in order, and never two at one place. -/
theorem pairwise_faultsFrom (index : Nat) (chunk : List SourceChar) :
    (faultsFrom index chunk).Pairwise fun a b => a.1 < b.1 := by
  induction chunk generalizing index with
  | nil => exact List.Pairwise.nil
  | cons c chunk ih =>
    rw [faultsFrom_cons, List.pairwise_append]
    refine ⟨?_, ih (index + 1), ?_⟩
    · cases c.fault? with
      | none => exact List.Pairwise.nil
      | some fault => exact List.pairwise_singleton _ _
    · intro a ha b hb
      rw [Option.mem_toList, Option.map_eq_some_iff] at ha
      obtain ⟨fault, -, rfl⟩ := ha
      exact le_of_mem_faultsFrom hb

/-- The characters with a property, by index from a given one on, each with the same fault. -/
def searchFrom (holds : SourceChar → Bool) (fault : Fault) (index : Nat)
    (chunk : List SourceChar) : List (Nat × Fault) :=
  (((chunk.zipIdx index).filter fun (c, _) => holds c).map fun (_, i) => i).map fun i => (i, fault)

theorem searchFrom_cons (holds : SourceChar → Bool) (fault : Fault) (index : Nat)
    (c : SourceChar) (rest : List SourceChar) :
    searchFrom holds fault index (c :: rest) =
      (if holds c then [(index, fault)] else []) ++ searchFrom holds fault (index + 1) rest := by
  cases h : holds c with
  | false => simp [searchFrom, h]
  | true => simp [searchFrom, h]

/-- Two searches, for the NULs and for the replaced characters, find what one search finds. -/
theorem perm_faultsFrom (index : Nat) (chunk : List SourceChar) :
    (searchFrom isNul .nulCharacter index chunk ++
      searchFrom isReplaced .invalidUtf8 index chunk).Perm (faultsFrom index chunk) := by
  induction chunk generalizing index with
  | nil => exact List.Perm.refl _
  | cons c chunk ih =>
    rw [searchFrom_cons, searchFrom_cons, faultsFrom_cons]
    by_cases hnul : c.isNul = true
    -- no character is faulty in both ways
    · have hvalid : c.isReplaced = false := by
        rw [isNul, beq_iff_eq] at hnul
        rw [hnul]
        rfl
      simp only [hnul, hvalid, fault?, if_true, List.append_assoc]
      exact (ih (index + 1)).cons _
    · by_cases hreplaced : c.isReplaced = true
      · simp only [hnul, hreplaced, fault?, if_true, List.append_assoc]
        -- the second search tells of it only after all that the first one found
        exact List.perm_middle.trans ((ih (index + 1)).cons _)
      · simp only [hnul, hreplaced, fault?]
        exact ih (index + 1)

/-- Sorting what two searches found gives what one search finds. -/
theorem faultsWithin_eq (chunk : List SourceChar) : faultsWithin chunk = faultsFrom 0 chunk := by
  have hsearch : faultsWithin chunk =
      (searchFrom isNul .nulCharacter 0 chunk ++
        searchFrom isReplaced .invalidUtf8 0 chunk).mergeSort fun a b => a.1 ≤ b.1 := rfl
  have hperm : (faultsWithin chunk).Perm (faultsFrom 0 chunk) := by
    rw [hsearch]
    exact (List.mergeSort_perm _ _).trans (perm_faultsFrom 0 chunk)
  have hsorted : (faultsWithin chunk).Pairwise fun a b => a.1 ≤ b.1 := by
    rw [hsearch]
    refine (List.pairwise_mergeSort ?_ ?_ _).imp fun hab => of_decide_eq_true hab
    · intro a b c hab hbc
      rw [decide_eq_true_eq] at hab hbc ⊢
      exact Nat.le_trans hab hbc
    · intro a b
      rw [Bool.or_eq_true, decide_eq_true_eq, decide_eq_true_eq]
      exact Nat.le_total a.1 b.1
  -- no index is found twice, so the order is strict on both sides and leaves one list only
  have hdistinct : (faultsWithin chunk).Pairwise fun a b => a.1 ≠ b.1 :=
    (hperm.pairwise_iff fun hab => hab.symm).2 ((pairwise_faultsFrom 0 chunk).imp Nat.ne_of_lt)
  have hstrict : (faultsWithin chunk).Pairwise fun a b => a.1 < b.1 :=
    (hsorted.and hdistinct).imp fun hab => Nat.lt_of_le_of_ne hab.1 hab.2
  refine List.Perm.eq_of_pairwise ?_ hstrict (pairwise_faultsFrom 0 chunk) hperm
  intro a b _ _ hab hba
  exact absurd hab (Nat.not_lt.2 (Nat.le_of_lt hba))

/-- Locating each fault from the start of a stretch gives the reports in their places. -/
theorem map_faultsFrom (p : Position) (before chunk : List SourceChar) :
    (faultsFrom before.length chunk).map (fun (index, fault) =>
        Report.mk (p.locate (plainText ((before ++ chunk).take index))) fault) =
      reportsFrom (p.locate (plainText before)) chunk := by
  induction chunk generalizing before with
  | nil => rfl
  | cons c chunk ih =>
    -- the character moves over to those before, which is where the next index is counted from
    have hsnoc : before ++ c :: chunk = (before ++ [c]) ++ chunk := by simp
    have hlength : before.length + 1 = (before ++ [c]).length := by simp
    have hnext : p.locate (plainText (before ++ [c])) =
        (p.locate (plainText before)).next c.char := by
      rw [plainText_append, Position.locate_append, Position.next_eq_locate]
      rfl
    have hrest := ih (before ++ [c])
    rw [← hlength, ← hsnoc, hnext] at hrest
    rw [faultsFrom_cons, reportsFrom_cons, List.map_append, hrest]
    congr 1
    cases c.fault? with
    | none => rfl
    | some fault => simp

end SourceChar

/-! ## Reading at once and character by character -/

namespace Reading

theorem bump_reports (r : Reading) :
    r.bump.reports.toList =
      r.reports.toList ++ SourceChar.reportsFrom r.position (r.rest.take 1) := by
  unfold bump
  cases hrest : r.rest with
  | nil => simp
  | cons c rest =>
    cases hfault : c.fault? with
    | none => simp [hfault, SourceChar.reportsFrom_cons]
    | some fault => simp [hfault, SourceChar.reportsFrom_cons, report, reportAt]

@[simp]
theorem bumps_cursor (r : Reading) (n : Nat) : (r.bumps n).cursor = r.cursor.advance n := by
  induction n generalizing r with
  | zero => rfl
  | succ n ih =>
    rw [bumps, ih, bump_cursor, Cursor.bump_eq_advance, Cursor.advance_advance, Nat.add_comm]

theorem bumps_reports (r : Reading) (n : Nat) :
    (r.bumps n).reports.toList =
      r.reports.toList ++ SourceChar.reportsFrom r.position (r.rest.take n) := by
  induction n generalizing r with
  | zero => simp [bumps]
  | succ n ih =>
    have hposition : r.bump.position = r.position.locate (plainText (r.rest.take 1)) := by
      rw [position, bump_cursor, Cursor.bump_eq_advance]
      rfl
    rw [bumps, ih, bump_reports, bump_rest, hposition, List.append_assoc,
      ← SourceChar.reportsFrom_append, ← List.take_add, Nat.add_comm]

theorem skip_reports (r : Reading) (n : Nat) :
    (r.skip n).reports.toList =
      r.reports.toList ++ SourceChar.reportsFrom r.position (r.rest.take n) := by
  have h := SourceChar.map_faultsFrom r.position [] (r.rest.take n)
  simp only [List.length_nil, List.nil_append, plainText_nil, Position.locate_nil] at h
  rw [skip, SourceChar.faultsWithin_eq]
  simp only [h, Array.toList_appendList]

/-- Reading a stretch at once is reading it character by character. -/
theorem skip_eq_bumps (r : Reading) (n : Nat) : r.skip n = r.bumps n := by
  have hcursor : (r.skip n).cursor = (r.bumps n).cursor := (r.bumps_cursor n).symm
  have hreports : (r.skip n).reports = (r.bumps n).reports := by
    rw [← Array.toList_inj, skip_reports, bumps_reports]
  calc r.skip n
      = ⟨(r.skip n).cursor, (r.skip n).reports⟩ := rfl
    _ = r.bumps n := by rw [hcursor, hreports]

end Reading

end Lexis
