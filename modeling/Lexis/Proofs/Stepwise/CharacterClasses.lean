import Lexis.Proofs.Stepwise.Basic
import Lexis.Proofs.Unicode.DecimalDigit

/-!
# Testing a character step by step

Whether a character is skipped, and whether it goes on with an identifier, is told by a shift, by an
entry of a table and by differences. None of them ever fails: a shift is only made for the first 64
characters, and the entry before the place where a search ends exists and is not too large
(`Unicode.exists_entry_of_partitionPoint_pos`).
-/

namespace Lexis

theorem minus?_of_le {a b : Nat} (h : b ≤ a) : minus? a b = some (a - b) :=
  if_pos h

theorem whitespace?_eq (config : Config) (c : Char) :
    whitespace? config c = some (config.isWhitespace c) := by
  unfold whitespace? characterBit? Config.isWhitespace
  by_cases hc : c.toNat < 64
  · simp [hc]
  · simp [hc]

theorem decimalDigit?_eq (c : Char) : decimalDigit? c = some (Unicode.isDecimalDigit c) := by
  unfold decimalDigit? Unicode.isDecimalDigit
  by_cases hascii : c.isDigit = true
  · rw [if_pos hascii, if_pos hascii]
    rfl
  by_cases hsmall : c.val < 128
  · simp [hascii, hsmall]
  by_cases hstarted :
      0 < Unicode.partitionPoint Unicode.decimalZeros fun first => first ≤ c.toNat
  · obtain ⟨first, hfirst, hle⟩ := Unicode.exists_entry_of_partitionPoint_pos hstarted
    have hdigit := minus?_of_le (of_decide_eq_true hle)
    simp [hascii, hsmall, hstarted, minus?_of_le hstarted, hfirst, hdigit]
  · simp [hascii, hsmall, hstarted]

theorem identifierPart?_eq (c : Char) : identifierPart? c = some (isIdentifierPart c) := by
  unfold identifierPart? isIdentifierPart
  rw [decimalDigit?_eq]
  split
  · next h => rw [h, Bool.true_or]
  · next h => rw [Bool.eq_false_iff.2 h, Bool.false_or]

end Lexis
