import Lexis.Lexeme.Basic

/-!
# Modes that differ in one feature

Each feature has a bit of its own, so switching one on or off leaves the others as they are
(`Mode.has_union`, `Mode.has_difference`). How a lexeme is read does not depend on whether comments
are left out (`Lexeme.read_congr`).
-/

namespace Lexis

namespace Feature

/-- The place of the bit that switches a feature on. -/
def place : Feature → Nat
  | identifiers => 0
  | integers => 1
  | floats => 2
  | chars => 3
  | strings => 4
  | rawStrings => 5
  | comments => 6
  | skipComments => 7

theorem toBitVec_bits (f : Feature) : f.bits.toBitVec = BitVec.twoPow 32 f.place := by
  cases f <;> rfl

theorem place_lt (f : Feature) : f.place < 32 := by
  cases f <;> decide

theorem place_eq_place_iff (f g : Feature) : f.place = g.place ↔ g = f := by
  cases f <;> cases g <;> decide

end Feature

namespace Mode

/-- A feature is on if its bit is set. -/
theorem has_eq_getLsbD (mode : Mode) (f : Feature) :
    mode.has f = mode.bits.toBitVec.getLsbD f.place := by
  have hbit : BitVec.twoPow 32 f.place ≠ 0#32 := by cases f <;> decide
  have hzero : mode.bits &&& f.bits = 0 ↔ mode.bits.toBitVec.getLsbD f.place = false := by
    rw [← UInt32.toBitVec_inj, UInt32.toBitVec_and, f.toBitVec_bits, BitVec.and_twoPow]
    split
    · next hset => simp [hset, hbit]
    · next hclear => simp [hclear]
  unfold has
  cases h : mode.bits.toBitVec.getLsbD f.place with
  | true => simp [hzero, h]
  | false => simp [hzero, h]

theorem toBitVec_bits_ofFeatures (f : Feature) :
    (ofFeatures [f]).bits.toBitVec = BitVec.twoPow 32 f.place := by
  cases f <;> rfl

/-- Switching a feature on. -/
theorem has_union (mode : Mode) (f g : Feature) :
    (mode.union (.ofFeatures [f])).has g = (mode.has g || decide (g = f)) := by
  rw [has_eq_getLsbD, has_eq_getLsbD, union, UInt32.toBitVec_or, toBitVec_bits_ofFeatures,
    BitVec.getLsbD_or, BitVec.getLsbD_twoPow]
  simp [f.place_lt, f.place_eq_place_iff g]

/-- Switching a feature off. -/
theorem has_difference (mode : Mode) (f g : Feature) :
    (mode.difference (.ofFeatures [f])).has g = (mode.has g && decide (g ≠ f)) := by
  rw [has_eq_getLsbD, has_eq_getLsbD, difference, UInt32.toBitVec_and, UInt32.toBitVec_not,
    toBitVec_bits_ofFeatures, BitVec.getLsbD_and, BitVec.getLsbD_not, BitVec.getLsbD_twoPow]
  simp [f.place_lt, g.place_lt, f.place_eq_place_iff g]

/-- There is nothing to switch off in a feature that is off. -/
theorem difference_eq_self {mode : Mode} {f : Feature} (h : mode.has f = false) :
    mode.difference (.ofFeatures [f]) = mode := by
  rw [has_eq_getLsbD] at h
  refine congrArg Mode.mk ?_
  rw [← UInt32.toBitVec_inj, UInt32.toBitVec_and, UInt32.toBitVec_not, toBitVec_bits_ofFeatures]
  apply BitVec.eq_of_getLsbD_eq
  intro i hi
  rw [BitVec.getLsbD_and, BitVec.getLsbD_not, BitVec.getLsbD_twoPow]
  by_cases hplace : f.place = i
  · rw [← hplace, h, Bool.false_and]
  · simp [hi, hplace]

end Mode

namespace Lexeme

/-- Whether comments are left out makes no difference to how a lexeme is read. -/
theorem read_congr {mode other : Mode}
    (h : ∀ f, f ≠ .skipComments → mode.has f = other.has f) (c : SourceChar)
    (rest : List SourceChar) : read mode c rest = read other c rest := by
  unfold read
  rw [h .identifiers (by decide), h .integers (by decide), h .floats (by decide),
    h .strings (by decide), h .chars (by decide), h .rawStrings (by decide),
    h .comments (by decide)]

end Lexeme

end Lexis
