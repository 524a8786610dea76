import Mathlib.Order.Bounds.Basic

/-!
# The first index with a property

What is searched for is told of by the least index that it has. These are facts about least indices
that are the same whatever is searched for.
-/

namespace Lexis

variable {holds : Nat → Prop} {i n : Nat}

/-- From an index on, the first index with a property is counted from there. -/
theorem isLeast_from_iff :
    IsLeast {i | n ≤ i ∧ holds i} i ↔ ∃ k, IsLeast {k | holds (n + k)} k ∧ i = n + k := by
  constructor
  · rintro ⟨⟨hle, hi⟩, hfirst⟩
    obtain ⟨k, rfl⟩ := Nat.exists_eq_add_of_le hle
    refine ⟨k, ⟨hi, fun m hm => ?_⟩, rfl⟩
    exact Nat.le_of_add_le_add_left (hfirst ⟨Nat.le_add_right n m, hm⟩)
  · rintro ⟨k, ⟨hk, hfirst⟩, rfl⟩
    refine ⟨⟨Nat.le_add_right n k, hk⟩, fun m hm => ?_⟩
    obtain ⟨j, rfl⟩ := Nat.exists_eq_add_of_le hm.1
    exact Nat.add_le_add_left (hfirst hm.2) n

/-- The least index with a property is the first, or else one behind it. -/
theorem isLeast_iff_of_zero :
    IsLeast {i | holds i} i ↔
      holds 0 ∧ i = 0 ∨ ¬ holds 0 ∧ ∃ j, IsLeast {j | holds (j + 1)} j ∧ i = j + 1 := by
  constructor
  · intro h
    by_cases hzero : holds 0
    · exact .inl ⟨hzero, Nat.le_zero.1 (h.2 hzero)⟩
    · cases i with
      | zero => exact absurd h.1 hzero
      | succ j =>
        exact .inr ⟨hzero, j, ⟨h.1, fun k hk => Nat.le_of_succ_le_succ (h.2 hk)⟩, rfl⟩
  · rintro (⟨hzero, rfl⟩ | ⟨hzero, j, h, rfl⟩)
    · exact ⟨hzero, fun _ _ => Nat.zero_le _⟩
    · refine ⟨h.1, fun k hk => ?_⟩
      cases k with
      | zero => exact absurd hk hzero
      | succ k => exact Nat.succ_le_succ (h.2 hk)

/-! ## Lists -/

/-- An element that stands in a list once is found at one index. -/
theorem getElem?_append_cons_eq_some_iff {α : Type} {a b : List α} {x : α} (ha : x ∉ a)
    (hb : x ∉ b) : (a ++ x :: b)[i]? = some x ↔ i = a.length := by
  constructor
  · intro h
    rcases Nat.lt_trichotomy i a.length with hlt | rfl | hlt
    · rw [List.getElem?_append_left hlt] at h
      exact absurd (List.mem_of_getElem? h) ha
    · rfl
    · obtain ⟨k, rfl⟩ := Nat.exists_eq_add_of_lt hlt
      rw [List.getElem?_append_right (by omega), Nat.add_assoc, Nat.add_sub_cancel_left,
        List.getElem?_cons_succ] at h
      exact absurd (List.mem_of_getElem? h) hb
  · rintro rfl
    simp

/-- Behind elements without a property the first with it is looked for in the rest. -/
theorem isLeast_getElem?_append_iff {α : Type} {a b : List α} {holds : α → Prop}
    (ha : ∀ c ∈ a, ¬ holds c) :
    IsLeast {k | ∃ c, (a ++ b)[k]? = some c ∧ holds c} i ↔
      ∃ j, IsLeast {j | ∃ c, b[j]? = some c ∧ holds c} j ∧ i = a.length + j := by
  have hbehind (j : Nat) : (a ++ b)[a.length + j]? = b[j]? := by
    rw [List.getElem?_append_right (Nat.le_add_right _ _), Nat.add_sub_cancel_left]
  have hset : {k | ∃ c, (a ++ b)[k]? = some c ∧ holds c} =
      {k | a.length ≤ k ∧ ∃ c, (a ++ b)[k]? = some c ∧ holds c} := by
    ext k
    rw [Set.mem_ofPred_eq, Set.mem_ofPred_eq, iff_and_self]
    rintro ⟨c, hc, hholds⟩
    by_contra hlt
    rw [List.getElem?_append_left (Nat.lt_of_not_le hlt)] at hc
    exact ha c (List.mem_of_getElem? hc) hholds
  rw [hset, isLeast_from_iff]
  simp only [hbehind]

/-- A search tells of the first element with a property, and of its index. -/
theorem find?_zipIdx_eq_some_iff {α : Type} {xs : List α} {holds : α → Bool} {c : α} {k : Nat} :
    (xs.zipIdx.find? fun (c, _) => holds c) = some (c, k) ↔
      IsLeast {k | ∃ c, xs[k]? = some c ∧ holds c = true} k ∧ xs[k]? = some c := by
  rw [List.find?_eq_some_iff_getElem]
  constructor
  · rintro ⟨hholds, i, hi, heq, hbefore⟩
    rw [List.length_zipIdx] at hi
    rw [List.getElem_zipIdx, Nat.zero_add] at heq
    obtain ⟨rfl, rfl⟩ := Prod.mk.inj heq
    have hat := List.getElem?_eq_getElem hi
    refine ⟨⟨⟨_, hat, hholds⟩, ?_⟩, hat⟩
    rintro j ⟨d, hd, hdholds⟩
    by_contra hlt
    obtain ⟨hj, rfl⟩ := List.getElem?_eq_some_iff.1 hd
    have hnot := hbefore j (Nat.lt_of_not_le hlt)
    rw [List.getElem_zipIdx] at hnot
    simp [hdholds] at hnot
  · rintro ⟨⟨⟨d, hd, hholds⟩, hfirst⟩, hc⟩
    rw [hc] at hd
    cases hd
    obtain ⟨hk, rfl⟩ := List.getElem?_eq_some_iff.1 hc
    refine ⟨hholds, k, by simpa using hk, by simp, fun j hj => ?_⟩
    rw [List.getElem_zipIdx]
    by_contra hnot
    have hholds' : holds xs[j] = true := by simpa using hnot
    exact absurd (hfirst ⟨_, List.getElem?_eq_getElem (Nat.lt_trans hj hk), hholds'⟩)
      (Nat.not_le_of_lt hj)

end Lexis
