import Lexis.Lexeme.Reading
import Lexis.Proofs.Source.Places

/-!
# Offsets of characters

`Source.offsetsOf` lists where the characters with a given property stand. The encoding issues about
bytes that are no UTF-8 are such a list (`Source.offsets_issues`), and the offsets in it that lie
between the byte order mark and a cursor are those of the characters that the cursor passed
(`Source.filter_offsetsOf`), as are those between any two places of a cursor
(`Source.filter_offsetsOf_advance`).
-/

namespace Lexis

/-- The byte offsets of the characters with a property, in a stretch of source that starts at
`offset`. -/
def offsetsFrom (p : SourceChar → Bool) (offset : Nat) : List SourceChar → List Nat
  | [] => []
  | c :: rest => (if p c then [offset] else []) ++ offsetsFrom p (offset + c.size) rest

/-- The byte offsets of the characters with a property. -/
def Source.offsetsOf (s : Source) (p : SourceChar → Bool) : List Nat :=
  offsetsFrom p 0 s.chars

variable {p : SourceChar → Bool}

theorem offsetsFrom_cons (offset : Nat) (c : SourceChar) (rest : List SourceChar) :
    offsetsFrom p offset (c :: rest) =
      (if p c then [offset] else []) ++ offsetsFrom p (offset + c.size) rest := rfl

theorem offsetsFrom_append (offset : Nat) (a b : List SourceChar) :
    offsetsFrom p offset (a ++ b) =
      offsetsFrom p offset a ++ offsetsFrom p (offset + byteSize (plainText a)) b := by
  induction a generalizing offset with
  | nil => rfl
  | cons c a ih =>
    have hsize : offset + c.size + byteSize (plainText a) =
        offset + byteSize (plainText (c :: a)) := by
      rw [plainText_cons, byteSize_cons, Nat.add_assoc]
      rfl
    rw [List.cons_append, offsetsFrom_cons, offsetsFrom_cons, ih, List.append_assoc, hsize]

/-- An offset is listed for a character that stands there. -/
theorem exists_of_mem_offsetsFrom {offset o : Nat} {chunk : List SourceChar}
    (h : o ∈ offsetsFrom p offset chunk) :
    ∃ before c after, chunk = before ++ c :: after ∧ p c = true ∧
      o = offset + byteSize (plainText before) := by
  induction chunk generalizing offset with
  | nil => cases h
  | cons c chunk ih =>
    rw [offsetsFrom_cons, List.mem_append] at h
    by_cases hc : o ∈ if p c then [offset] else []
    · split at hc
      · next hp =>
        rw [List.mem_singleton] at hc
        exact ⟨[], c, chunk, rfl, hp, hc⟩
      · cases hc
    · obtain ⟨before, d, after, hchunk, hd, ho⟩ := ih (h.resolve_left hc)
      refine ⟨c :: before, d, after, ?_, hd, ?_⟩
      · rw [hchunk, List.cons_append]
      · rw [ho, plainText_cons, byteSize_cons, Nat.add_assoc]
        rfl

theorem le_of_mem_offsetsFrom {offset o : Nat} {chunk : List SourceChar}
    (h : o ∈ offsetsFrom p offset chunk) : offset ≤ o := by
  obtain ⟨before, c, after, -, -, ho⟩ := exists_of_mem_offsetsFrom h
  omega

/-- Offsets are listed in their order. -/
theorem pairwise_offsetsFrom (offset : Nat) (chunk : List SourceChar) :
    (offsetsFrom p offset chunk).Pairwise (· < ·) := by
  induction chunk generalizing offset with
  | nil => exact List.Pairwise.nil
  | cons c chunk ih =>
    rw [offsetsFrom_cons, List.pairwise_append]
    refine ⟨?_, ih _, ?_⟩
    · split
      · exact List.pairwise_singleton _ _
      · exact List.Pairwise.nil
    · intro a ha b hb
      have hle := le_of_mem_offsetsFrom hb
      have hc := c.size_pos
      split at ha
      · rw [List.mem_singleton] at ha
        omega
      · cases ha

theorem lt_of_mem_offsetsFrom {offset o : Nat} {chunk : List SourceChar}
    (h : o ∈ offsetsFrom p offset chunk) : o < offset + byteSize (plainText chunk) := by
  obtain ⟨before, c, after, hchunk, -, ho⟩ := exists_of_mem_offsetsFrom h
  have hc := c.size_pos
  have hsize : byteSize (plainText chunk) =
      byteSize (plainText before) + (c.size + byteSize (plainText after)) := by
    rw [hchunk, plainText_append, byteSize_append, plainText_cons, byteSize_cons]
    rfl
  omega

namespace Source

/-- The offsets within a stretch of a source are those of the characters that stand there. -/
theorem filter_offsetsOf_within {s : Source} {before chunk after : List SourceChar}
    (h : s.chars = before ++ (chunk ++ after)) :
    (s.offsetsOf p).filter (fun o => byteSize (plainText before) ≤ o ∧
        o < byteSize (plainText before) + byteSize (plainText chunk)) =
      offsetsFrom p (byteSize (plainText before)) chunk := by
  rw [offsetsOf, h, offsetsFrom_append, offsetsFrom_append, Nat.zero_add, List.filter_append,
    List.filter_append]
  -- what stands before the stretch lies too early, and what follows it too late
  have hearly : (offsetsFrom p 0 before).filter (fun o => byteSize (plainText before) ≤ o ∧
      o < byteSize (plainText before) + byteSize (plainText chunk)) = [] := by
    rw [List.filter_eq_nil_iff]
    intro o ho
    have hlt := lt_of_mem_offsetsFrom ho
    rw [decide_eq_true_iff]
    omega
  have hlate : (offsetsFrom p (byteSize (plainText before) + byteSize (plainText chunk))
      after).filter (fun o => byteSize (plainText before) ≤ o ∧
        o < byteSize (plainText before) + byteSize (plainText chunk)) = [] := by
    rw [List.filter_eq_nil_iff]
    intro o ho
    have hle := le_of_mem_offsetsFrom ho
    rw [decide_eq_true_iff]
    omega
  have hwithin : (offsetsFrom p (byteSize (plainText before)) chunk).filter
      (fun o => byteSize (plainText before) ≤ o ∧
        o < byteSize (plainText before) + byteSize (plainText chunk)) =
      offsetsFrom p (byteSize (plainText before)) chunk := by
    rw [List.filter_eq_self]
    intro o ho
    have hle := le_of_mem_offsetsFrom ho
    have hlt := lt_of_mem_offsetsFrom ho
    rw [decide_eq_true_iff]
    omega
  rw [hearly, hlate, hwithin, List.nil_append, List.append_nil]

/-- The offsets between two places of a cursor are those of the characters that the cursor passes on
its way. -/
theorem filter_offsetsOf_advance (s : Source) (m n : Nat) :
    (s.offsetsOf p).filter (fun o => (s.cursor.advance m).position.offset ≤ o ∧
        o < (s.cursor.advance (m + n)).position.offset) =
      offsetsFrom p (s.cursor.advance m).position.offset ((s.cursor.rest.drop m).take n) := by
  have hchars : s.chars = (s.mark ++ s.cursor.rest.take m) ++
      ((s.cursor.rest.drop m).take n ++ (s.cursor.rest.drop m).drop n) := by
    rw [List.take_append_drop, List.append_assoc, List.take_append_drop]
    exact s.chars_eq
  rw [offset_advance_add, offset_advance]
  exact filter_offsetsOf_within hchars

/-- The offsets between the byte order mark and a cursor are those of the characters that the cursor
has passed. -/
theorem filter_offsetsOf (s : Source) (n : Nat) :
    (s.offsetsOf p).filter
        (fun o => s.markSize ≤ o ∧ o < (s.cursor.advance n).position.offset) =
      offsetsFrom p s.markSize (s.cursor.rest.take n) := by
  have h := @filter_offsetsOf_advance p s 0 n
  rwa [Nat.zero_add] at h

/-- Two stretches from the start of a source that take up as many bytes are one. -/
theorem eq_of_byteSize_eq {s : Source} {a b a' b' : List SourceChar} (h : s.chars = a ++ b)
    (h' : s.chars = a' ++ b') (hsize : byteSize (plainText a) = byteSize (plainText a')) :
    a = a' ∧ b = b' := by
  have hlength : a.length = a'.length := by
    have ha := charsFilling?_append a b
    have ha' := charsFilling?_append a' b'
    rw [← h, hsize] at ha
    rw [← h', ha] at ha'
    exact Option.some.inj ha'
  exact List.append_inj (h.symm.trans h') hlength

theorem invalidFrom_append (offset : Nat) (a b : List SourceChar) :
    invalidFrom offset (a ++ b) =
      invalidFrom offset a ++ invalidFrom (offset + byteSize (plainText a)) b := by
  induction a generalizing offset with
  | nil => rfl
  | cons c a ih =>
    have hsize : offset + c.char.utf8Size + byteSize (plainText a) =
        offset + byteSize (plainText (c :: a)) := by
      rw [plainText_cons, byteSize_cons, Nat.add_assoc]
    rw [List.cons_append, ← hsize]
    cases c with
    | valid c => exact ih _
    | replaced bytes => exact congrArg (_ :: ·) (ih _)

theorem invalidFrom_map_valid (offset : Nat) (valid : List Char) :
    invalidFrom offset (valid.map .valid) = [] := by
  induction valid generalizing offset with
  | nil => rfl
  | cons c valid ih => exact ih _

/-- Ill-formed bytes further on are noted further on. -/
theorem invalidFrom_add (offset n : Nat) (chunk : List SourceChar) :
    invalidFrom (offset + n) chunk =
      (invalidFrom offset chunk).map fun issue => { issue with position := issue.position + n } := by
  induction chunk generalizing offset with
  | nil => rfl
  | cons c chunk ih =>
    cases c with
    | valid c =>
      rw [invalidFrom, invalidFrom, ← ih, Nat.add_right_comm]
    | replaced bytes =>
      rw [invalidFrom, invalidFrom, List.map_cons, ← ih, Nat.add_right_comm]

theorem kind_of_mem_invalidFrom {offset : Nat} {chunk : List SourceChar} {issue : Issue}
    (h : issue ∈ invalidFrom offset chunk) : issue.kind = .invalidUtf8 := by
  induction chunk generalizing offset with
  | nil => cases h
  | cons c chunk ih =>
    cases c with
    | valid c => exact ih h
    | replaced bytes =>
      rcases List.mem_cons.1 h with rfl | hmem
      · rfl
      · exact ih hmem

theorem map_position_invalidFrom (offset : Nat) (chunk : List SourceChar) :
    (invalidFrom offset chunk).map Issue.position =
      offsetsFrom SourceChar.isReplaced offset chunk := by
  induction chunk generalizing offset with
  | nil => rfl
  | cons c chunk ih =>
    rw [offsetsFrom_cons]
    cases c with
    | valid c => exact ih _
    | replaced bytes =>
      rw [invalidFrom, List.map_cons, ih]
      rfl

/-- The encoding issues about bytes that are no UTF-8 are those of the replaced characters. -/
theorem filter_issues (s : Source) :
    s.issues.filter (·.kind == .invalidUtf8) = invalidFrom 0 s.chars := by
  have hself : (invalidFrom 0 s.chars).filter (·.kind == .invalidUtf8) =
      invalidFrom 0 s.chars := by
    rw [List.filter_eq_self]
    intro issue hissue
    rw [kind_of_mem_invalidFrom hissue]
    rfl
  have hmark : (if s.isMarked then [Issue.mk .byteOrderMark 0 byteOrderMark.utf8Size]
      else []).filter (·.kind == .invalidUtf8) = [] := by
    split
    · rfl
    · rfl
  rw [issues, List.filter_append, hmark, hself, List.nil_append]

theorem offsets_issues (s : Source) :
    (s.issues.filter (·.kind == .invalidUtf8)).map Issue.position =
      s.offsetsOf SourceChar.isReplaced := by
  rw [filter_issues, map_position_invalidFrom]
  rfl

end Source

end Lexis
