import Lexis.Proofs.Source.Places
import Lexis.Proofs.Source.Utf8

/-!
# Bytes of a source

A source can be looked at byte by byte. Where a cursor stands, the padded bytes have the byte that
the cursor tells (`Source.getElem?_padded`), whatever characters there are, and a zero at the end. A
byte below 128 is a character by itself, any other belongs to a character of several
(`Cursor.ofNat_current`, `Cursor.current_lt_iff`), so ASCII characters can be looked for among the
bytes.
-/

namespace Lexis

namespace Utf8

@[simp]
theorem bytesOf_nil : bytesOf [] = [] := rfl

theorem bytesOf_cons (c : Char) (text : List Char) :
    bytesOf (c :: text) = String.utf8EncodeChar c ++ bytesOf text := rfl

theorem bytesOf_append (a b : List Char) : bytesOf (a ++ b) = bytesOf a ++ bytesOf b :=
  List.flatMap_append

@[simp]
theorem length_bytesOf (text : List Char) : (bytesOf text).length = byteSize text := by
  induction text with
  | nil => rfl
  | cons c text ih =>
    rw [bytesOf_cons, List.length_append, String.length_utf8EncodeChar, ih, byteSize_cons]

/-- ASCII texts are encoded as the bytes of their characters. -/
theorem bytesOf_of_ascii {text : List Char} (h : ∀ c ∈ text, c.toNat < 128) :
    bytesOf text = text.map fun c => UInt8.ofNat c.toNat := by
  induction text with
  | nil => rfl
  | cons c text ih =>
    rw [bytesOf_cons, encodeChar_of_lt (h c List.mem_cons_self),
      ih fun d hd => h d (List.mem_cons_of_mem _ hd)]
    rfl

end Utf8

/-! ## The byte at a cursor -/

namespace Cursor

variable {c : Cursor} {d : SourceChar} {more : List SourceChar}

theorem current_of_rest_eq_nil (h : c.rest = []) : c.current = 0 := by
  rw [current, byteAt, h]
  rfl

/-- The byte at a cursor is the first of those that are still to be read. -/
theorem head?_bytesOf_rest (h : c.rest = d :: more) :
    (Utf8.bytesOf (plainText c.rest)).head? = some c.current := by
  cases hd : String.utf8EncodeChar d.char with
  | nil => exact absurd hd String.utf8EncodeChar_ne_nil
  | cons b bytes =>
    rw [current, byteAt, h, List.take_succ_cons, plainText_cons, plainText_cons,
      Utf8.bytesOf_cons, Utf8.bytesOf_cons, hd]
    rfl

theorem current_mem_encodeChar (h : c.rest = d :: more) :
    c.current ∈ String.utf8EncodeChar d.char := by
  have hhead := head?_bytesOf_rest h
  rw [h, plainText_cons, Utf8.bytesOf_cons] at hhead
  cases hd : String.utf8EncodeChar d.char with
  | nil => exact absurd hd String.utf8EncodeChar_ne_nil
  | cons b bytes =>
    rw [hd] at hhead
    rw [← Option.some.inj hhead]
    exact List.mem_cons_self

/-- A byte below 128 is the character at the cursor. -/
theorem ofNat_current (h : c.rest = d :: more) (hlt : c.current.toNat < 128) :
    Char.ofNat c.current.toNat = d.char := by
  have hd := Utf8.toNat_of_mem_encodeChar (current_mem_encodeChar h) hlt
  rw [← hd, Char.ofNat_toNat]

/-- Only an ASCII character starts with a byte below 128. -/
theorem current_lt_iff (h : c.rest = d :: more) : c.current.toNat < 128 ↔ d.char.toNat < 128 := by
  constructor
  · intro hlt
    have hd := Utf8.toNat_of_mem_encodeChar (current_mem_encodeChar h) hlt
    omega
  · intro hlt
    have hmem := current_mem_encodeChar h
    rw [Utf8.encodeChar_of_lt hlt, List.mem_singleton] at hmem
    rw [hmem, UInt8.toNat_ofNat']
    omega

end Cursor

namespace Source

/-- Where a cursor stands, the padded bytes have its byte. -/
theorem getElem?_padded (s : Source) (n : Nat) :
    s.padded[(s.cursor.advance n).position.offset]? = some (s.cursor.advance n).current := by
  have hoffset : (s.cursor.advance n).position.offset =
      (Utf8.bytesOf (plainText (s.mark ++ s.cursor.rest.take n))).length := by
    rw [Utf8.length_bytesOf, offset_advance]
  have htext : s.text = plainText (s.mark ++ s.cursor.rest.take n) ++
      plainText (s.cursor.advance n).rest := by
    rw [← plainText_append, Cursor.advance_rest, List.append_assoc, List.take_append_drop,
      ← chars_eq, text]
  rw [padded, htext, Utf8.bytesOf_append, List.append_assoc, hoffset,
    List.getElem?_append_right (Nat.le_refl _), Nat.sub_self, ← List.head?_eq_getElem?]
  cases hrest : (s.cursor.advance n).rest with
  | nil =>
    have hpadding : s.paddedSize - s.size = s.paddedSize - s.size - 1 + 1 := by
      unfold paddedSize
      omega
    rw [Cursor.current_of_rest_eq_nil hrest, hpadding]
    rfl
  | cons d more =>
    rw [List.head?_append, ← hrest, Cursor.head?_bytesOf_rest hrest]
    rfl

/-- Only at the end is there nothing left to read. -/
theorem size_le_offset_iff (s : Source) (n : Nat) :
    s.size ≤ (s.cursor.advance n).position.offset ↔ (s.cursor.advance n).rest = [] := by
  constructor
  · intro hle
    have hslice := s.slice?_advance_size n
    have heq : (s.cursor.advance n).position.offset = s.size :=
      Nat.le_antisymm (s.offset_advance_le_size n) hle
    rw [heq, slice?, if_pos (Nat.le_refl _), Nat.sub_self] at hslice
    cases hbefore : charsFilling? s.size s.chars with
    | none => simp [hbefore] at hslice
    | some before =>
      simp only [hbefore, Option.bind_eq_bind, Option.bind_some, charsFilling?, List.take_zero,
        Option.pure_def, Option.some.injEq, plainText_nil] at hslice
      rw [Cursor.advance_rest]
      exact List.map_eq_nil_iff.1 hslice.symm
  · intro hrest
    rw [s.offset_advance_of_rest_eq_nil hrest]

end Source

end Lexis
