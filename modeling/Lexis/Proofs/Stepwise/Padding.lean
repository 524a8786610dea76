import Mathlib.Algebra.Group.Nat.Defs
import Mathlib.Data.List.GetD
import Mathlib.Order.Bounds.Basic
import Lexis.Proofs.Source.Jumps
import Lexis.Proofs.Stepwise.Moves

/-!
# Padded bytes

The bytes of a source are padded with zeros to whole blocks, so that two bytes can be looked at from
any place, the end included (`Source.IsPadded`). Rounding up to whole blocks takes an addition and a
mask (`Source.roundUp`), and these come out right for every size that leaves room in a machine word.
Wherever moves have led a cursor, what it tells of the source is what the padded bytes have there,
and a NUL among the characters is told from the end (`Cursor.Looks`). The main result is
`Source.padding_is_safe`.
-/

namespace Lexis

/-! ## Rounding up -/

section Rounding

variable {w : Nat}

/-- A number of bytes with two to spare, rounded up to whole blocks of 64 in words of `w` bits: with
as many bytes more as a block has but one, what is more than whole blocks is cleared away. -/
def Source.roundUp (size : BitVec w) : BitVec w :=
  (size + 2#w + 64#w - 1#w) &&& ~~~(64#w - 1#w)

/-- The bits that a mask clears are those that it would have kept. -/
theorem toNat_and_not_add (x mask : BitVec w) :
    (x &&& ~~~mask).toNat + (x &&& mask).toNat = x.toNat := by
  have hdisjoint : (x &&& ~~~mask) &&& (x &&& mask) = 0#w := by grind
  have hjoin : (x &&& ~~~mask) ||| (x &&& mask) = x := by grind
  rw [← BitVec.toNat_add_of_and_eq_zero hdisjoint, BitVec.add_eq_or_of_and_eq_zero _ _ hdisjoint,
    hjoin]

/-- The six low bits are what is more than whole blocks. -/
theorem toNat_and_not_low (h : 64 < 2 ^ w) (x : BitVec w) :
    (x &&& ~~~(64#w - 1#w)).toNat = x.toNat / 64 * 64 := by
  have hmask : (64#w - 1#w).toNat = 2 ^ 6 - 1 := by
    have hone : (1#w).toNat = 1 := Nat.mod_eq_of_lt (by omega)
    have hblock : (64#w).toNat = 64 := Nat.mod_eq_of_lt h
    have hle : 1#w ≤ 64#w := by
      rw [BitVec.le_def, hone, hblock]
      decide
    calc (64#w - 1#w).toNat = 64 - 1 := by rw [BitVec.toNat_sub_of_le hle, hone, hblock]
      _ = 2 ^ 6 - 1 := by decide
  have hlow : (x &&& (64#w - 1#w)).toNat = x.toNat % 64 := by
    rw [BitVec.toNat_and, hmask]
    exact Nat.and_two_pow_sub_one_eq_mod x.toNat 6
  have hsplit := toNat_and_not_add x (64#w - 1#w)
  omega

/-- Where nothing is lost in adding, a number of bytes is rounded up as numbers are. -/
theorem Source.toNat_roundUp {n : Nat} (h : n + 65 < 2 ^ w) :
    (roundUp (BitVec.ofNat w n)).toNat = (n + 2 + 63) / 64 * 64 := by
  have hsum : BitVec.ofNat w n + 2#w + 64#w - 1#w = BitVec.ofNat w (n + 65) := by
    rw [BitVec.sub_eq_iff_eq_add]
    simp only [← BitVec.ofNat_add]
  rw [roundUp, hsum, toNat_and_not_low (by omega), BitVec.toNat_ofNat, Nat.mod_eq_of_lt h]

end Rounding

namespace Source

/-! ## The padded bytes -/

/-- The bytes are those of the source, padded with zeros to the fewest whole blocks of 64 bytes that
have two to spare, and they are UTF-8 as a whole. -/
structure IsPadded (s : Source) (bytes : List UInt8) : Prop where
  isLeast_length : IsLeast {m | 64 ∣ m ∧ s.size + 2 ≤ m} bytes.length
  /-- In words of any width that leaves room for it, the length is found by rounding up. -/
  toNat_roundUp : ∀ w, s.size + 65 < 2 ^ w →
    (roundUp (BitVec.ofNat w s.size)).toNat = bytes.length
  take_eq : bytes.take s.size = Utf8.bytesOf s.text
  drop_eq_zero : ∀ b ∈ bytes.drop s.size, b = 0
  isValidUTF8 : bytes.toByteArray.IsValidUTF8

theorem size_add_two_le_paddedSize (s : Source) : s.size + 2 ≤ s.paddedSize := by
  unfold paddedSize
  omega

theorem length_padded (s : Source) : s.padded.length = s.paddedSize := by
  have hle := s.size_add_two_le_paddedSize
  have hsize : (Utf8.bytesOf s.text).length = s.size := Utf8.length_bytesOf _
  rw [padded, List.length_append, List.length_replicate, hsize]
  omega

theorem bytesOf_replicate_nul (n : Nat) :
    Utf8.bytesOf (List.replicate n '\x00') = List.replicate n 0 := by
  rw [Utf8.bytesOf_of_ascii, List.map_replicate]
  · rfl
  · intro c hc
    rw [List.eq_of_mem_replicate hc]
    decide

theorem isPadded_padded (s : Source) : s.IsPadded s.padded := by
  have hsize : s.size = (Utf8.bytesOf s.text).length := (Utf8.length_bytesOf _).symm
  constructor
  · rw [length_padded]
    refine ⟨⟨Nat.dvd_mul_left _ _, s.size_add_two_le_paddedSize⟩, ?_⟩
    rintro _ ⟨⟨blocks, rfl⟩, hle⟩
    unfold paddedSize
    omega
  · intro w hw
    rw [Source.toNat_roundUp hw, length_padded, paddedSize]
  · rw [padded, hsize, List.take_left]
  · intro b hb
    rw [padded, hsize, List.drop_left] at hb
    exact List.eq_of_mem_replicate hb
  · rw [padded, ← bytesOf_replicate_nul, ← Utf8.bytesOf_append]
    exact .intro _ rfl

/-- Within the padded bytes stand the bytes of the source and, behind them, zeros. -/
theorem getElem?_padded_of_lt {s : Source} {i : Nat} (h : i < s.padded.length) :
    s.padded[i]? = some ((Utf8.bytesOf s.text).getD i 0) := by
  rw [length_padded] at h
  have hsize : (Utf8.bytesOf s.text).length = s.size := Utf8.length_bytesOf _
  rcases Nat.lt_or_ge i s.size with hi | hi
  · rw [← hsize] at hi
    rw [padded, List.getElem?_append_left hi, List.getD_eq_getElem?_getD,
      List.getElem?_eq_getElem hi, Option.getD_some]
  · rw [← hsize] at hi
    rw [padded, List.getElem?_append_right hi, List.getD_eq_default _ _ hi,
      List.getElem?_replicate_of_lt (by omega)]

end Source

/-! ## Looking from a cursor -/

namespace Cursor

/-- A look at one of two bytes takes in no more than the next two characters. -/
theorem byteAt_eq (c : Cursor) {ahead : Nat} (h : ahead < 2) :
    c.byteAt ahead = (Utf8.bytesOf (plainText c.rest)).getD ahead 0 := by
  have hsplit : Utf8.bytesOf (plainText c.rest) =
      Utf8.bytesOf (plainText (c.rest.take 2)) ++ Utf8.bytesOf (plainText (c.rest.drop 2)) := by
    rw [← Utf8.bytesOf_append, ← plainText_append, List.take_append_drop]
  rw [byteAt, hsplit]
  cases hdrop : c.rest.drop 2 with
  | nil => rw [plainText_nil, Utf8.bytesOf_nil, List.append_nil]
  | cons d more =>
    have hlength : (c.rest.take 2).length = 2 := by
      have hlength := congrArg List.length hdrop
      rw [List.length_drop, List.length_cons] at hlength
      rw [List.length_take]
      omega
    -- two characters take up two bytes at least
    have hle := length_le_byteSize (plainText (c.rest.take 2))
    rw [length_plainText, hlength, ← Utf8.length_bytesOf] at hle
    rw [List.getD_append _ _ _ _ (by omega)]

/-- What a cursor tells of a source is what `bytes`, which the source is padded to, have where it
stands. -/
structure Looks (c : Cursor) (s : Source) (bytes : List UInt8) : Prop where
  inBounds : c.position.offset + 1 < bytes.length
  current_eq : bytes[c.position.offset]? = some c.current
  peek_eq : bytes[c.position.offset + 1]? = some c.peek
  /-- The bytes looked at are those of the source, or zero past its end. -/
  current_eq_getD : c.current = (Utf8.bytesOf s.text).getD c.position.offset 0
  peek_eq_getD : c.peek = (Utf8.bytesOf s.text).getD (c.position.offset + 1) 0
  offset_le : c.position.offset ≤ s.size
  currentChar?_eq_none_iff : c.currentChar? = none ↔ c.position.offset = s.size
  /-- The character at the cursor is the one that starts at its offset. -/
  currentChar?_eq_some_iff : ∀ d : Char, c.currentChar? = some d ↔
    ∃ before after sourceChar, s.chars = before ++ sourceChar :: after ∧ sourceChar.char = d ∧
      byteSize (plainText before) = c.position.offset
  /-- Found by way of the byte at the cursor, the character is the same. -/
  char?_eq : (Head.mk s c.position #[]).char? = some c.currentChar?
  /-- A zero before the end is a NUL that the source holds. -/
  nul : c.position.offset < s.size → c.current = 0 → c.currentChar? = some '\x00'

end Cursor

namespace Source

/-- From where a cursor stands, the bytes of the source are those that are still to be read. -/
theorem getD_bytesOf_offset (s : Source) (n ahead : Nat) :
    (Utf8.bytesOf s.text).getD ((s.cursor.advance n).position.offset + ahead) 0 =
      (Utf8.bytesOf (plainText (s.cursor.advance n).rest)).getD ahead 0 := by
  have htext : s.text = plainText (s.mark ++ s.cursor.rest.take n) ++
      plainText (s.cursor.advance n).rest := by
    rw [← plainText_append, Cursor.advance_rest, List.append_assoc, List.take_append_drop,
      ← chars_eq, text]
  rw [htext, Utf8.bytesOf_append, offset_advance, ← Utf8.length_bytesOf,
    List.getD_append_right _ _ _ _ (Nat.le_add_right _ _), Nat.add_sub_cancel_left]

/-- Wherever a cursor has come to, it looks at the padded bytes. -/
theorem looks_advance (s : Source) (n : Nat) : (s.cursor.advance n).Looks s s.padded := by
  have hle := s.offset_advance_le_size n
  have hsome := s.size_add_two_le_paddedSize
  have hchars : s.chars = (s.mark ++ s.cursor.rest.take n) ++ (s.cursor.advance n).rest := by
    rw [Cursor.advance_rest, List.append_assoc, List.take_append_drop, ← chars_eq]
  have hbyte {ahead : Nat} (h : ahead < 2) : (s.cursor.advance n).byteAt ahead =
      (Utf8.bytesOf s.text).getD ((s.cursor.advance n).position.offset + ahead) 0 := by
    rw [getD_bytesOf_offset, Cursor.byteAt_eq _ h]
  have hend : (s.cursor.advance n).position.offset = s.size ↔ (s.cursor.advance n).rest = [] := by
    rw [← s.size_le_offset_iff]
    omega
  have hcurrent : (s.cursor.advance n).currentChar? = none ↔ (s.cursor.advance n).rest = [] := by
    rw [Cursor.currentChar?, Option.map_eq_none_iff, List.head?_eq_none_iff]
  have hstands : Reading.Stands ⟨s.cursor.advance n, #[]⟩ := ⟨n, rfl⟩
  constructor
  · rw [length_padded]
    omega
  · exact s.getElem?_padded n
  · rw [getElem?_padded_of_lt (by rw [length_padded]; omega), ← hbyte (by decide)]
    rfl
  · exact hbyte (by decide)
  · exact hbyte (by decide)
  · exact hle
  · rw [hcurrent, hend]
  · intro d
    constructor
    · intro h
      obtain ⟨c, hc, rfl⟩ := Option.map_eq_some_iff.1 h
      obtain ⟨more, hmore⟩ := List.head?_eq_some_iff.1 hc
      rw [hmore] at hchars
      exact ⟨_, more, c, hchars, rfl, (s.offset_advance n).symm⟩
    · rintro ⟨before, after, c, hsplit, rfl, hoffset⟩
      rw [offset_advance] at hoffset
      obtain ⟨-, hrest⟩ := eq_of_byteSize_eq hchars hsplit hoffset.symm
      exact Cursor.currentChar?_of_rest_eq_cons hrest
  · exact Reading.char?_head hstands
  -- only a NUL is written as a zero, so that the zeros behind the end are the only others
  · intro hlt hzero
    cases hrest : (s.cursor.advance n).rest with
    | nil => exact absurd (hend.2 hrest) (Nat.ne_of_lt hlt)
    | cons c more =>
      have hc := Cursor.ofNat_current hrest (by rw [hzero]; decide)
      rw [hzero] at hc
      rw [Cursor.currentChar?_of_rest_eq_cons hrest, ← hc]
      rfl

/-- The bytes of every source are padded as they have to be, and wherever moves have led a cursor,
two of them can be looked at that tell what the source holds there. -/
theorem padding_is_safe {s : Source} {moves : List Cursor.Move} {c : Cursor}
    (h : moves.foldlM Cursor.move? s.cursor = some c) :
    s.IsPadded s.padded ∧ c.Looks s s.padded := by
  obtain ⟨n, rfl⟩ := Cursor.exists_advance_of_moves h
  exact ⟨s.isPadded_padded, s.looks_advance n⟩

/-- Behind a NUL and a character of two bytes, at the end of 62 bytes, which are padded to 64. -/
theorem padding_is_safe_at_end :
    let s := ofText ('\x00' :: 'é' :: List.replicate 59 'a')
    ∃ c, [Cursor.Move.bump, .bump, .advanceTo 100].foldlM Cursor.move? s.cursor = some c ∧
      s.size = 62 ∧ c.position.offset = 62 ∧ s.padded.length = 64 ∧
      s.IsPadded s.padded ∧ c.Looks s s.padded := by
  intro s
  have hmoves : [Cursor.Move.bump, .bump, .advanceTo 100].foldlM Cursor.move? s.cursor =
      some (s.cursor.advance 61) := by
    decide +kernel
  exact ⟨_, hmoves, by decide +kernel, by decide +kernel, by decide +kernel,
    padding_is_safe hmoves⟩

end Source

end Lexis
