import Mathlib.Data.List.Basic
import Mathlib.Data.List.TakeWhile
import Lexis.Source.Decoding

/-!
# Decoding loses nothing

Whatever bytes a source is decoded from, encoding it gives them back (`Utf8.encode_decode`): a
character that was encoded well is encoded the same way again, and one that was replaced carries the
bytes that it stands for. So bytes that decode without a replacement are UTF-8
(`Utf8.isValidUTF8_of_decode`).
-/

namespace Lexis.Utf8

/-! ## Characters of several bytes -/

theorem isContinuation_iff {b : UInt8} :
    isContinuation b = true ↔ 0x80 ≤ b.toNat ∧ b.toNat ≤ 0xBF := by
  simp [isContinuation]

theorem isContinuation_of_isSecond {lead b : UInt8} (h : isSecond lead b = true) :
    isContinuation b = true := by
  unfold isSecond at h
  exact (Bool.and_eq_true _ _ ▸ h).1

theorem continuationRun_isPrefix (lead : UInt8) (rest : List UInt8) :
    continuationRun lead rest <+: rest := by
  unfold continuationRun
  split
  · exact List.nil_prefix
  · next second more htake =>
    have hrest : second :: more <+: rest := by
      rw [← htake]
      exact List.take_prefix _ _
    split
    · refine List.IsPrefix.trans ?_ hrest
      rw [List.prefix_cons_inj]
      exact List.takeWhile_prefix _
    · exact List.nil_prefix

/-- Every byte of a run is a continuation, and the first of them fits the lead. -/
theorem of_continuationRun_eq_cons {lead second : UInt8} {rest more : List UInt8}
    (h : continuationRun lead rest = second :: more) :
    isSecond lead second = true ∧ ∀ b ∈ more, isContinuation b = true := by
  unfold continuationRun at h
  split at h
  · cases h
  split at h
  · next hsecond =>
    cases h
    exact ⟨hsecond, fun b hb => List.mem_takeWhile_imp hb⟩
  · cases h

/-- The leads of characters of two, three and four bytes. -/
theorem lead_of_trailing_eq {lead : UInt8} {n : Nat} (h : trailing lead = n) (hn : n ≠ 0) :
    (n = 1 ∧ 0xC2 ≤ lead.toNat ∧ lead.toNat ≤ 0xDF) ∨
      (n = 2 ∧ 0xE0 ≤ lead.toNat ∧ lead.toNat ≤ 0xEF) ∨
      (n = 3 ∧ 0xF0 ≤ lead.toNat ∧ lead.toNat ≤ 0xF4) := by
  unfold trailing at h
  split at h
  · next hlead => exact .inl ⟨h.symm, hlead⟩
  split at h
  · next hlead => exact .inr (.inl ⟨h.symm, hlead⟩)
  split at h
  · next hlead => exact .inr (.inr ⟨h.symm, hlead⟩)
  · exact absurd h.symm hn

theorem isSecond_bounds {lead b : UInt8} (h : isSecond lead b = true) :
    0x80 ≤ b.toNat ∧ b.toNat ≤ 0xBF ∧ (lead.toNat = 0xE0 → 0xA0 ≤ b.toNat) ∧
      (lead.toNat = 0xED → b.toNat ≤ 0x9F) ∧ (lead.toNat = 0xF0 → 0x90 ≤ b.toNat) ∧
      (lead.toNat = 0xF4 → b.toNat ≤ 0x8F) := by
  have hb := isContinuation_iff.1 (isContinuation_of_isSecond h)
  unfold isSecond at h
  rw [Bool.and_eq_true] at h
  have hnarrow := h.2
  refine ⟨hb.1, hb.2, ?_, ?_, ?_, ?_⟩
  · intro hlead
    simpa [hlead] using hnarrow
  · intro hlead
    simpa [hlead] using hnarrow
  · intro hlead
    simpa [hlead] using hnarrow
  · intro hlead
    simpa [hlead] using hnarrow

/-- The number of a character is the one it was made from, outside the gap of the surrogates. -/
theorem toNat_val_ofNat {n : Nat} (h : n < 0xD800 ∨ 0xDFFF < n ∧ n < 0x110000) :
    (Char.ofNat n).val.toNat = n := by
  have hvalid : n.isValidChar := h
  unfold Char.ofNat
  rw [dif_pos hvalid]
  rfl

/-- Every byte is the number of a character. -/
theorem toNat_ofNat_byte (b : UInt8) : (Char.ofNat b.toNat).toNat = b.toNat := by
  have hlt := b.toNat_lt
  exact toNat_val_ofNat (.inl (by omega))

theorem encodeChar_assemble_two {lead a : UInt8} (hlead : 0xC2 ≤ lead.toNat ∧ lead.toNat ≤ 0xDF)
    (ha : isSecond lead a = true) :
    String.utf8EncodeChar (assemble lead [a]) = [lead, a] := by
  have ha := isSecond_bounds ha
  have hv : (assemble lead [a]).val.toNat = lead.toNat % 32 * 64 + a.toNat % 64 := by
    show (Char.ofNat (lead.toNat % 32 * 64 + a.toNat % 64)).val.toNat = _
    apply toNat_val_ofNat
    omega
  unfold String.utf8EncodeChar
  rw [hv]
  dsimp only
  rw [if_neg (by omega), if_pos (by omega)]
  simp only [List.cons.injEq, ← UInt8.toNat_inj, UInt8.toNat_ofNat', and_true]
  omega

theorem encodeChar_assemble_three {lead a b : UInt8}
    (hlead : 0xE0 ≤ lead.toNat ∧ lead.toNat ≤ 0xEF) (ha : isSecond lead a = true)
    (hb : isContinuation b = true) :
    String.utf8EncodeChar (assemble lead [a, b]) = [lead, a, b] := by
  have ha := isSecond_bounds ha
  have hb := isContinuation_iff.1 hb
  have hv : (assemble lead [a, b]).val.toNat =
      (lead.toNat % 16 * 64 + a.toNat % 64) * 64 + b.toNat % 64 := by
    -- `0xED` is followed by less than `0xA0`, which keeps the number below the surrogates
    show (Char.ofNat ((lead.toNat % 16 * 64 + a.toNat % 64) * 64 + b.toNat % 64)).val.toNat = _
    apply toNat_val_ofNat
    omega
  unfold String.utf8EncodeChar
  rw [hv]
  dsimp only
  rw [if_neg (by omega), if_neg (by omega), if_pos (by omega)]
  simp only [List.cons.injEq, ← UInt8.toNat_inj, UInt8.toNat_ofNat', and_true]
  omega

theorem encodeChar_assemble_four {lead a b c : UInt8}
    (hlead : 0xF0 ≤ lead.toNat ∧ lead.toNat ≤ 0xF4) (ha : isSecond lead a = true)
    (hb : isContinuation b = true) (hc : isContinuation c = true) :
    String.utf8EncodeChar (assemble lead [a, b, c]) = [lead, a, b, c] := by
  have ha := isSecond_bounds ha
  have hb := isContinuation_iff.1 hb
  have hc := isContinuation_iff.1 hc
  have hv : (assemble lead [a, b, c]).val.toNat =
      ((lead.toNat % 8 * 64 + a.toNat % 64) * 64 + b.toNat % 64) * 64 + c.toNat % 64 := by
    -- `0xF4` is followed by less than `0x90`, which keeps the number in range
    show (Char.ofNat (((lead.toNat % 8 * 64 + a.toNat % 64) * 64 + b.toNat % 64) * 64 +
      c.toNat % 64)).val.toNat = _
    apply toNat_val_ofNat
    omega
  unfold String.utf8EncodeChar
  rw [hv]
  dsimp only
  rw [if_neg (by omega), if_neg (by omega), if_neg (by omega)]
  simp only [List.cons.injEq, ← UInt8.toNat_inj, UInt8.toNat_ofNat', and_true]
  omega

/-- A character of several bytes is encoded the way it was read. -/
theorem encodeChar_assemble {lead : UInt8} {rest : List UInt8}
    (hlength : (continuationRun lead rest).length = trailing lead)
    (hne : continuationRun lead rest ≠ []) :
    String.utf8EncodeChar (assemble lead (continuationRun lead rest)) =
      lead :: continuationRun lead rest := by
  cases hrun : continuationRun lead rest with
  | nil => exact absurd hrun hne
  | cons a more =>
    obtain ⟨ha, hmore⟩ := of_continuationRun_eq_cons hrun
    rw [hrun, List.length_cons] at hlength
    rcases lead_of_trailing_eq hlength.symm (Nat.succ_ne_zero _) with
      ⟨hn, hlead⟩ | ⟨hn, hlead⟩ | ⟨hn, hlead⟩
    -- the lead tells how many bytes there are
    · have hlast : more = [] := List.length_eq_zero_iff.1 (by omega)
      subst hlast
      exact encodeChar_assemble_two hlead ha
    · obtain ⟨b, rfl⟩ := List.length_eq_one_iff.1 (show more.length = 1 by omega)
      exact encodeChar_assemble_three hlead ha (hmore b (by simp))
    · obtain ⟨b, c, rfl⟩ := List.length_eq_two.1 (show more.length = 2 by omega)
      exact encodeChar_assemble_four hlead ha (hmore b (by simp)) (hmore c (by simp))

/-! ## Whole sources -/

/-- The first character carries the bytes that it was read from. -/
theorem bytes_decodeOne (lead : UInt8) (rest : List UInt8) :
    (decodeOne lead rest).1.bytes = lead :: rest.take (decodeOne lead rest).2 := by
  have hrun : rest.take (continuationRun lead rest).length = continuationRun lead rest :=
    (List.prefix_iff_eq_take.1 (continuationRun_isPrefix lead rest)).symm
  unfold decodeOne
  split
  · next hlead =>
    show String.utf8EncodeChar (Char.ofNat lead.toNat) = [lead]
    unfold String.utf8EncodeChar
    rw [toNat_val_ofNat (by omega)]
    dsimp only
    rw [if_pos (by omega), UInt8.ofNat_toNat]
  · dsimp only
    split
    · next hcomplete =>
      show String.utf8EncodeChar (assemble lead (continuationRun lead rest)) = _
      rw [hrun]
      exact encodeChar_assemble hcomplete.1 hcomplete.2
    · show lead :: continuationRun lead rest = _
      rw [hrun]

/-- Encoding what was decoded gives the bytes back. -/
theorem encode_decode (bytes : List UInt8) : encode (decode bytes) = bytes := by
  fun_induction decode bytes with
  | case1 => rfl
  | case2 lead rest c used hone ih =>
    have hbytes := bytes_decodeOne lead rest
    rw [hone] at hbytes
    calc encode (c :: decode (rest.drop used))
        = c.bytes ++ encode (decode (rest.drop used)) := rfl
      _ = (lead :: rest.take used) ++ rest.drop used := by rw [hbytes, ih]
      _ = lead :: rest := by rw [List.cons_append, List.take_append_drop]

theorem encode_map_valid (text : List Char) : encode (text.map .valid) = bytesOf text := by
  rw [encode, bytesOf, List.flatMap_map]
  rfl

/-- Bytes that decode without a replacement are UTF-8. -/
theorem isValidUTF8_of_decode {bytes : List UInt8} {text : List Char}
    (h : decode bytes = text.map .valid) : bytes.toByteArray.IsValidUTF8 := by
  have hbytes : bytes = bytesOf text := by
    rw [← encode_map_valid, ← h, encode_decode]
  rw [hbytes]
  exact .intro text rfl

/-! ## ASCII bytes -/

/-- An ASCII character is encoded as the byte of its number. -/
theorem encodeChar_of_lt {c : Char} (h : c.toNat < 128) :
    String.utf8EncodeChar c = [UInt8.ofNat c.toNat] := by
  have hval : c.val.toNat < 128 := h
  unfold String.utf8EncodeChar
  dsimp only
  rw [if_pos (by omega)]
  rfl

/-- An ASCII byte stands only in the encoding of the character of its number: all bytes of a
character of several have their highest bit set. -/
theorem toNat_of_mem_encodeChar {c : Char} {b : UInt8} (h : b ∈ String.utf8EncodeChar c)
    (hb : b.toNat < 128) : c.toNat = b.toNat := by
  show c.val.toNat = b.toNat
  unfold String.utf8EncodeChar at h
  dsimp only at h
  split at h
  · simp only [List.mem_singleton, ← UInt8.toNat_inj, UInt8.toNat_ofNat'] at h
    omega
  split at h
  · simp only [List.mem_cons, List.not_mem_nil, or_false, ← UInt8.toNat_inj,
      UInt8.toNat_ofNat'] at h
    omega
  split at h
  · simp only [List.mem_cons, List.not_mem_nil, or_false, ← UInt8.toNat_inj,
      UInt8.toNat_ofNat'] at h
    omega
  · simp only [List.mem_cons, List.not_mem_nil, or_false, ← UInt8.toNat_inj,
      UInt8.toNat_ofNat'] at h
    omega

/-- Only NUL has a zero in its encoding. -/
theorem eq_nul_of_zero_mem_encodeChar {c : Char} (h : 0 ∈ String.utf8EncodeChar c) :
    c = '\x00' := by
  have hc : c.toNat = 0 := toNat_of_mem_encodeChar h (by decide)
  apply Char.ext
  rw [← UInt32.toNat_inj]
  exact hc

end Lexis.Utf8
