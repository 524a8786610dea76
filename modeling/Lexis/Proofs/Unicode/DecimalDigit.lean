import Lexis.Unicode.DecimalDigit
import Mathlib.Order.Basic

/-!
# Searching the table of decimal digits

Bisection looks at few entries of a table. Of any table, the entry before the place where it ends
has the property that is searched for, and the entry at that place has not. Where the entries with
the property come first (`IsPartitioned`), that tells them all from the others
(`lt_partitionPoint_iff`).

The table of zeros is in ascending order and leaves room for ten digits from each entry to the next
(`decimalZeros_spaced`), so that the run that holds a character, if there is one, starts at the last
zero at or below it.
-/

namespace Lexis.Unicode

/-! ## Where a search ends -/

section Search

variable {α : Type} {entries : Array α} {holds : α → Bool} {entry : α} {i j : Nat}

/-- A search that starts behind an entry with the property, or at the first one, ends behind an
entry with the property, or at the first one. -/
theorem exists_entry_of_search_pos {low high : Nat}
    (hlow : 0 < low → ∃ entry, entries[low - 1]? = some entry ∧ holds entry = true)
    (h : 0 < partitionPoint.search entries holds low high) :
    ∃ entry, entries[partitionPoint.search entries holds low high - 1]? = some entry ∧
      holds entry = true := by
  fun_induction partitionPoint.search entries holds low high with
  | case1 low high hlt middle entry hentry hholds ih =>
    exact ih (fun _ => ⟨entry, hentry, hholds⟩) h
  | case2 low high hlt middle entry hentry hfails ih => exact ih hlow h
  | case3 low high hlt middle hnone => exact hlow h
  | case4 low high hend => exact hlow h

/-- The entry before the one where a search ends has the property. -/
theorem exists_entry_of_partitionPoint_pos (h : 0 < partitionPoint entries holds) :
    ∃ entry, entries[partitionPoint entries holds - 1]? = some entry ∧ holds entry = true :=
  exists_entry_of_search_pos (fun hzero => absurd hzero (Nat.lt_irrefl 0)) h

/-- A search up to an entry without the property, or up to the end, ends at an entry without the
property, or at the end. -/
theorem fails_at_search {low high : Nat} (hle : low ≤ high) (hsize : high ≤ entries.size)
    (hhigh : ∀ entry, entries[high]? = some entry → holds entry = false)
    (h : entries[partitionPoint.search entries holds low high]? = some entry) :
    holds entry = false := by
  fun_induction partitionPoint.search entries holds low high with
  | case1 low high hlt middle found hfound hholds ih =>
    have hmiddle : middle + 1 ≤ high := by omega
    exact ih hmiddle hsize hhigh h
  | case2 low high hlt middle found hfound hfails ih =>
    have hmiddle : ∀ entry, entries[middle]? = some entry → holds entry = false := by
      intro entry hentry
      rw [hfound] at hentry
      cases hentry
      exact Bool.eq_false_iff.2 hfails
    exact ih (by omega) (by omega) hmiddle h
  | case3 low high hlt middle hnone =>
    have hmiddle : entries.size ≤ middle := Array.getElem?_eq_none_iff.1 hnone
    omega
  | case4 low high hend =>
    have hlow : low = high := by omega
    rw [hlow] at h
    exact hhigh entry h

/-- The entry where a search ends does not have the property. -/
theorem fails_at_partitionPoint (h : entries[partitionPoint entries holds]? = some entry) :
    holds entry = false := by
  have hend : ∀ entry, entries[entries.size]? = some entry → holds entry = false := by
    intro entry hentry
    rw [Array.getElem?_eq_none (Nat.le_refl _)] at hentry
    cases hentry
  exact fails_at_search (Nat.zero_le _) (Nat.le_refl _) hend h

/-- What holds of any two entries in their order holds of two that are found by index. -/
theorem rel_of_pairwise {rel : α → α → Prop} (h : entries.toList.Pairwise rel) {a b : α}
    (hij : i < j) (ha : entries[i]? = some a) (hb : entries[j]? = some b) : rel a b := by
  rw [← Array.getElem?_toList] at ha hb
  obtain ⟨hi, rfl⟩ := List.getElem?_eq_some_iff.1 ha
  obtain ⟨hj, rfl⟩ := List.getElem?_eq_some_iff.1 hb
  exact List.pairwise_iff_getElem.1 h i j hi hj hij

/-- All entries with the property come before all entries without it. -/
def IsPartitioned (entries : Array α) (holds : α → Bool) : Prop :=
  entries.toList.Pairwise fun a b => holds b = true → holds a = true

/-- From an entry with the property back to the first, all have it. -/
theorem IsPartitioned.holds_of_le (h : IsPartitioned entries holds) {a b : α} (hij : i ≤ j)
    (ha : entries[i]? = some a) (hb : entries[j]? = some b) (hholds : holds b = true) :
    holds a = true := by
  rcases Nat.eq_or_lt_of_le hij with rfl | hlt
  · rw [ha] at hb
    cases hb
    exact hholds
  · exact rel_of_pairwise h hlt ha hb hholds

/-- A search ends where the entries with the property do. -/
theorem lt_partitionPoint_iff (h : IsPartitioned entries holds)
    (hentry : entries[i]? = some entry) :
    i < partitionPoint entries holds ↔ holds entry = true := by
  constructor
  · intro hlt
    obtain ⟨last, hlast, hholds⟩ := exists_entry_of_partitionPoint_pos (Nat.zero_lt_of_lt hlt)
    exact h.holds_of_le (Nat.le_sub_one_of_lt hlt) hentry hlast hholds
  · intro hholds
    by_contra hlt
    have hpoint : partitionPoint entries holds < entries.size := by
      obtain ⟨hi, -⟩ := Array.getElem?_eq_some_iff.1 hentry
      omega
    have hnext := Array.getElem?_eq_getElem hpoint
    have hholds' := h.holds_of_le (Nat.le_of_not_lt hlt) hnext hentry hholds
    rw [fails_at_partitionPoint hnext] at hholds'
    cases hholds'

end Search

/-! ## The table of zeros -/

/-- No run of ten digits reaches the next. -/
theorem decimalZeros_spaced : decimalZeros.toList.Pairwise fun first next => first + 10 ≤ next := by
  decide +kernel

/-- The only run of ASCII characters is the first. -/
theorem eq_zero_or_le_of_mem_decimalZeros :
    ∀ first ∈ decimalZeros, first = '0'.toNat ∨ 128 ≤ first := by
  decide +kernel

/-- Where the search for a code point ends, which is behind the zeros at or below it. -/
def zerosUpTo (code : Nat) : Nat :=
  partitionPoint decimalZeros fun first => first ≤ code

variable {code first i : Nat}

theorem isPartitioned_decimalZeros :
    IsPartitioned decimalZeros fun first => decide (first ≤ code) := by
  refine decimalZeros_spaced.imp fun hle hnext => ?_
  rw [decide_eq_true_eq] at hnext ⊢
  omega

theorem lt_zerosUpTo_iff (h : decimalZeros[i]? = some first) : i < zerosUpTo code ↔ first ≤ code :=
  (lt_partitionPoint_iff isPartitioned_decimalZeros h).trans decide_eq_true_iff

/-- The zero that a character is compared with is there, and is not above it. -/
theorem exists_zero_of_zerosUpTo_pos (h : 0 < zerosUpTo code) :
    ∃ first, decimalZeros[zerosUpTo code - 1]? = some first ∧ first ≤ code := by
  obtain ⟨first, hfirst, hle⟩ := exists_entry_of_partitionPoint_pos h
  exact ⟨first, hfirst, of_decide_eq_true hle⟩

/-- One of the runs of ten digits holds a code point. -/
def InDigitRun (code : Nat) : Prop :=
  ∃ first ∈ decimalZeros, first ≤ code ∧ code < first + 10

/-- A run that holds a code point starts at the last zero at or below it. -/
theorem inDigitRun_iff_last :
    InDigitRun code ↔ 0 < zerosUpTo code ∧
      ∃ first, decimalZeros[zerosUpTo code - 1]? = some first ∧ code - first < 10 := by
  constructor
  · rintro ⟨first, hmem, hle, hlt⟩
    obtain ⟨i, hi⟩ := Array.mem_iff_getElem?.1 hmem
    have hbefore : i < zerosUpTo code := (lt_zerosUpTo_iff hi).2 hle
    have hpos : 0 < zerosUpTo code := Nat.zero_lt_of_lt hbefore
    obtain ⟨last, hlast, hlastle⟩ := exists_zero_of_zerosUpTo_pos hpos
    -- a zero behind this one and still at or below the code point would leave it out of the run
    have hsame : i = zerosUpTo code - 1 := by
      by_contra hne
      have hearlier : i < zerosUpTo code - 1 := by omega
      have hspaced : first + 10 ≤ last := rel_of_pairwise decimalZeros_spaced hearlier hi hlast
      omega
    exact ⟨hpos, first, hsame ▸ hi, by omega⟩
  · rintro ⟨hpos, first, hfirst, hlt⟩
    obtain ⟨last, hlast, hle⟩ := exists_zero_of_zerosUpTo_pos hpos
    rw [hfirst] at hlast
    cases hlast
    exact ⟨first, Array.mem_of_getElem? hfirst, hle, by omega⟩

/-- Of the ASCII characters only the digits are in a run. -/
theorem inDigitRun_iff_of_lt (h : code < 128) :
    InDigitRun code ↔ '0'.toNat ≤ code ∧ code ≤ '9'.toNat := by
  have hnine : '9'.toNat = '0'.toNat + 9 := rfl
  constructor
  · rintro ⟨first, hmem, hle, hlt⟩
    rcases eq_zero_or_le_of_mem_decimalZeros first hmem with rfl | hhigh
    · omega
    · omega
  · rintro ⟨hle, hlt⟩
    exact ⟨'0'.toNat, Array.mem_of_getElem? (i := 0) rfl, hle, by omega⟩

/-! ## Decimal digits -/

variable {c : Char}

/-- The two shortcuts for ASCII characters and the search each tell of the runs. -/
theorem isDecimalDigit_iff_inDigitRun : isDecimalDigit c = true ↔ InDigitRun c.toNat := by
  have hascii : c.val < 128 ↔ c.toNat < 128 := UInt32.lt_iff_toNat_lt
  unfold isDecimalDigit
  split
  · next hdigit =>
    have hbounds := Char.isDigit_iff_toNat.1 hdigit
    have hsmall : c.toNat < 128 := Nat.lt_of_le_of_lt hbounds.2 (by decide)
    exact iff_of_true rfl ((inDigitRun_iff_of_lt hsmall).2 hbounds)
  split
  · next hdigit hsmall =>
    rw [inDigitRun_iff_of_lt (hascii.1 hsmall), ← Char.isDigit_iff_toNat]
    exact iff_of_false Bool.false_ne_true hdigit
  · rw [inDigitRun_iff_last, Bool.and_eq_true, decide_eq_true_eq]
    refine and_congr_right fun hpos => ?_
    obtain ⟨first, hfirst, -⟩ := exists_zero_of_zerosUpTo_pos hpos
    rw [zerosUpTo] at hfirst
    simp [zerosUpTo, hfirst]

/-- A character is a decimal digit if and only if it is one of the ten that start at some zero of
the table. The search ends behind the zeros at or below the character, and the last of these, which
the character is compared with, is there and is not above it. For this the zeros have to be at least
ten apart, and they are. -/
theorem isDecimalDigit_agrees_with_table (c : Char) :
    (isDecimalDigit c = true ↔ ∃ first ∈ decimalZeros, first ≤ c.toNat ∧ c.toNat < first + 10) ∧
      (∀ i first, decimalZeros[i]? = some first → (i < zerosUpTo c.toNat ↔ first ≤ c.toNat)) ∧
      (0 < zerosUpTo c.toNat →
        ∃ first, decimalZeros[zerosUpTo c.toNat - 1]? = some first ∧ first ≤ c.toNat) ∧
      decimalZeros.toList.Pairwise fun first next => first + 10 ≤ next :=
  ⟨isDecimalDigit_iff_inDigitRun, fun _ _ h => lt_zerosUpTo_iff h, exists_zero_of_zerosUpTo_pos,
    decimalZeros_spaced⟩

end Lexis.Unicode
