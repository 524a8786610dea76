import Lexis.Proofs.Lexeme.Extent
import Lexis.Proofs.Stepwise.Skips

/-!
# Text up to a mark step by step

A mark of ASCII characters can be searched for among the bytes of a text: its bytes stand only where
its characters do (`Enclosed.isPrefixOf_bytesOf`), because no ASCII byte is part of a longer
character. So the offset that a head finds is that of the mark (`Reading.find?_head`), the offset
behind the mark stands between characters as well, and going there is reading the text and the mark
(`Reading.enclosed?_head`).
-/

namespace Lexis

/-! ## Searching among bytes -/

namespace Enclosed

/-- The first byte of an ASCII character tells it from all other characters. -/
theorem char_eq_of_mem {c m : Char} (hm : m.toNat < 128)
    (hmem : UInt8.ofNat m.toNat ∈ String.utf8EncodeChar c) : c = m := by
  have hbyte : (UInt8.ofNat m.toNat).toNat = m.toNat := by
    rw [UInt8.toNat_ofNat']
    omega
  have hc := Utf8.toNat_of_mem_encodeChar hmem (by omega)
  exact Char.toNat_inj.1 (hc.trans hbyte)

/-- The bytes of a mark stand at the start of the bytes of a text only where its characters stand at
the start of the text. -/
theorem isPrefixOf_bytesOf {mark : List Char} (hascii : ∀ m ∈ mark, m.toNat < 128)
    (source : List SourceChar) :
    (Utf8.bytesOf mark).isPrefixOf (Utf8.bytesOf (plainText source)) = startsWith mark source := by
  induction mark generalizing source with
  | nil => rfl
  | cons m mark ih =>
    obtain ⟨hm, hmark⟩ := List.forall_mem_cons.1 hascii
    rw [Utf8.bytesOf_cons, Utf8.encodeChar_of_lt hm, List.singleton_append]
    cases source with
    | nil => rfl
    | cons c source =>
      have hstarts : startsWith (m :: mark) (c :: source) =
          (c.char == m && startsWith mark source) := rfl
      rw [plainText_cons, Utf8.bytesOf_cons, hstarts]
      by_cases hc : c.char = m
      · rw [hc, Utf8.encodeChar_of_lt hm, List.singleton_append, List.isPrefixOf_cons_cons_self,
          ih hmark, beq_self_eq_true, Bool.true_and]
      · rw [beq_false_of_ne hc, Bool.false_and]
        cases hbytes : String.utf8EncodeChar c.char with
        | nil => exact absurd hbytes String.utf8EncodeChar_ne_nil
        | cons b bytes =>
          have hb : UInt8.ofNat m.toNat ≠ b := by
            intro he
            refine hc (char_eq_of_mem hm ?_)
            rw [hbytes, he]
            exact List.mem_cons_self
          rw [List.cons_append, List.isPrefixOf, beq_false_of_ne hb, Bool.false_and]

/-- Bytes without the first byte of what is searched for are passed over. -/
theorem indexOfBytes?_append {b : UInt8} {needle bytes : List UInt8} (h : b ∉ bytes)
    (more : List UInt8) :
    Cursor.indexOfBytes? (b :: needle) (bytes ++ more) =
      (Cursor.indexOfBytes? (b :: needle) more).map (· + bytes.length) := by
  induction bytes with
  | nil => simp
  | cons c bytes ih =>
    rw [List.mem_cons, not_or] at h
    have hnot : (b :: needle).isPrefixOf (c :: (bytes ++ more)) = false := by
      rw [List.isPrefixOf, beq_false_of_ne h.1, Bool.false_and]
    rw [List.cons_append, Cursor.indexOfBytes?, hnot, ih h.2, List.length_cons]
    simp [Function.comp_def, Nat.add_assoc]

/-- A mark that is searched for among the bytes of a text is found where it is among the
characters. -/
theorem indexOfBytes?_bytesOf {mark : List Char} (hmark : mark ≠ [])
    (hascii : ∀ m ∈ mark, m.toNat < 128) (source : List SourceChar) :
    Cursor.indexOfBytes? (Utf8.bytesOf mark) (Utf8.bytesOf (plainText source)) =
      (indexOf? mark source).map fun n => byteSize (plainText (source.take n)) := by
  obtain ⟨m, mark, rfl⟩ := List.exists_cons_of_ne_nil hmark
  have hm := (List.forall_mem_cons.1 hascii).1
  have hneedle : Utf8.bytesOf (m :: mark) = UInt8.ofNat m.toNat :: Utf8.bytesOf mark := by
    rw [Utf8.bytesOf_cons, Utf8.encodeChar_of_lt hm]
    rfl
  induction source with
  | nil =>
    rw [hneedle]
    rfl
  | cons c source ih =>
    have hprefix := isPrefixOf_bytesOf hascii (c :: source)
    have htake : (fun n => byteSize (plainText ((c :: source).take n))) ∘ (· + 1) =
        fun n => byteSize (plainText (source.take n)) + c.size := by
      funext n
      rw [Function.comp, List.take_succ_cons, plainText_cons, byteSize_cons, Nat.add_comm]
      rfl
    rw [indexOf?]
    by_cases hc : c.char = m
    -- the character may start the mark, and then it is a single byte
    · have hbytes : Utf8.bytesOf (plainText (c :: source)) =
          UInt8.ofNat m.toNat :: Utf8.bytesOf (plainText source) := by
        rw [plainText_cons, hc, Utf8.bytesOf_cons, Utf8.encodeChar_of_lt hm]
        rfl
      have hsize : c.size = 1 := by
        rw [SourceChar.size, hc, ← String.length_utf8EncodeChar, Utf8.encodeChar_of_lt hm]
        rfl
      rw [hbytes] at hprefix ⊢
      rw [Cursor.indexOfBytes?, hprefix, ih]
      split
      · rfl
      · rw [Option.map_map, Option.map_map, htake, hsize]
        rfl
    · have hnot : startsWith (m :: mark) (c :: source) = false := by
        show (c.char == m && startsWith mark source) = false
        rw [beq_false_of_ne hc, Bool.false_and]
      have hmem : UInt8.ofNat m.toNat ∉ String.utf8EncodeChar c.char :=
        fun hmem => hc (char_eq_of_mem hm hmem)
      rw [hnot, plainText_cons, Utf8.bytesOf_cons c.char, hneedle, indexOfBytes?_append hmem,
        ← hneedle, ih, String.length_utf8EncodeChar]
      simp only [Bool.false_eq_true, if_false, Option.map_map, htake]
      rfl

end Enclosed

namespace Lexeme

theorem ascii_backtick : ∀ m ∈ backtick, m.toNat < 128 :=
  List.forall_mem_singleton.2 (by decide)

theorem ascii_lineEnd : ∀ m ∈ lineEnd, m.toNat < 128 :=
  List.forall_mem_singleton.2 (by decide)

theorem ascii_blockEnd : ∀ m ∈ blockEnd, m.toNat < 128 :=
  List.forall_mem_cons.2 ⟨by decide, List.forall_mem_singleton.2 (by decide)⟩

end Lexeme

namespace Reading

variable {r : Reading} {mark : List Char}

/-- A head finds a mark where it stands first. -/
theorem find?_head (h : r.Stands) (hmark : mark ≠ []) (hascii : ∀ m ∈ mark, m.toNat < 128) :
    r.head.find? (Utf8.bytesOf mark) =
      some ((Enclosed.indexOf? mark r.rest).map fun n =>
        (r.cursor.advance n).position.offset) := by
  have hle : r.head.position.offset ≤ r.head.source.size := offset_advance_le_size h 0
  have hahead : (Utf8.bytesOf r.head.source.text).drop r.head.position.offset =
      Utf8.bytesOf (plainText r.rest) := by
    obtain ⟨n, hn⟩ := h
    have htext : r.cursor.source.text =
        plainText (r.cursor.source.mark ++ r.cursor.source.cursor.rest.take n) ++
          plainText (r.cursor.source.cursor.advance n).rest := by
      rw [← plainText_append, Cursor.advance_rest, List.append_assoc, List.take_append_drop,
        ← Source.chars_eq, Source.text]
    have hoffset := r.cursor.source.offset_advance n
    rw [← hn] at htext hoffset
    show (Utf8.bytesOf r.cursor.source.text).drop r.cursor.position.offset = _
    rw [htext, Utf8.bytesOf_append, hoffset, ← Utf8.length_bytesOf, List.drop_left]
  rw [Head.find?, if_pos hle]
  dsimp only
  rw [hahead, Enclosed.indexOfBytes?_bytesOf hmark hascii, Option.map_map]
  congr 2

/-- Behind a mark that was found stands a character, or the end. -/
theorem offset_behind_mark (hmark : mark ≠ []) (hascii : ∀ m ∈ mark, m.toNat < 128) {n : Nat}
    (hindex : Enclosed.indexOf? mark r.rest = some n) :
    n ≤ r.rest.length ∧ (r.cursor.advance (n + mark.length)).position.offset =
      (r.cursor.advance n).position.offset + (Utf8.bytesOf mark).length := by
  have hstarts := (Enclosed.indexOf?_eq_some hmark hindex).1
  have hvalid : SourceChar.replacement ∉ mark :=
    fun hmem => absurd (hascii _ hmem) (by decide)
  have htake := Enclosed.take_of_startsWith hvalid hstarts
  constructor
  · by_contra hlt
    rw [List.drop_of_length_le (by omega), List.take_nil] at htake
    exact hmark (List.map_eq_nil_iff.1 htake.symm)
  · rw [offset_advance_eq, offset_advance_eq, List.take_add, htake, plainText_append,
      plainText_map_valid, byteSize_append, Utf8.length_bytesOf, Nat.add_assoc]

/-- Going up to a mark and over it is reading text that runs up to the mark. -/
theorem enclosed?_head (h : r.Stands) (hmark : mark ≠ []) (hascii : ∀ m ∈ mark, m.toNat < 128)
    (fault : Fault) :
    Stepper.enclosed? mark fault r.head =
      some (r.consumeEnclosed mark fault (.read mark r.rest)).head := by
  rw [Stepper.enclosed?, Head.head_eq, find?_head h hmark hascii]
  cases hindex : Enclosed.indexOf? mark r.rest with
  | none =>
    have hread : Enclosed.read mark r.rest = ⟨r.rest, false⟩ := by
      rw [Enclosed.read, hindex]
    have hend : r.head.source.size = (r.cursor.advance r.rest.length).position.offset :=
      size_eq_offset h
    rw [hread]
    simp only [Option.bind_eq_bind, Option.bind_some, Option.map_none, Head.skipTo?_eq, hend]
    rw [skipTo?_head h]
    simp [consumeEnclosed, Enclosed.charsThrough]
  | some n =>
    have hread : Enclosed.read mark r.rest = ⟨r.rest.take n, true⟩ := by
      rw [Enclosed.read, hindex]
    obtain ⟨hlength, hoffset⟩ := offset_behind_mark hmark hascii hindex
    have hskip : ((Enclosed.read mark r.rest).charsThrough mark).length = n + mark.length := by
      rw [hread, Enclosed.charsThrough]
      simp [Nat.min_eq_left hlength]
    simp only [Option.bind_eq_bind, Option.bind_some, Option.map_some, ← hoffset, Head.skipTo?_eq]
    rw [skipTo?_head h, consumeEnclosed, hskip, hread]
    rfl

/-- A line comment is read up to the line end, which stays. -/
theorem comment?_head_of_slash (h : r.Stands) {more : List SourceChar}
    (hrest : r.rest = .valid '/' :: more) :
    Stepper.comment? r.head =
      some (r.skip (Enclosed.read Lexeme.lineEnd r.rest).body.length).head := by
  have hbyte : Char.ofNat r.cursor.current.toNat = '/' :=
    Cursor.ofNat_current hrest ((Cursor.current_lt_iff hrest).2 (by decide))
  have hfind := find?_head h Lexeme.lineEnd_ne_nil Lexeme.ascii_lineEnd
  rw [Stepper.comment?, Head.head_eq, byteChar?_head h, hbyte]
  simp only [Option.bind_eq_bind, Option.bind_some, if_true, hfind, Head.skipTo?_eq]
  cases hindex : Enclosed.indexOf? Lexeme.lineEnd r.rest with
  | none =>
    have hread : Enclosed.read Lexeme.lineEnd r.rest = ⟨r.rest, false⟩ := by
      rw [Enclosed.read, hindex]
    have hend : r.head.source.size = (r.cursor.advance r.rest.length).position.offset :=
      size_eq_offset h
    rw [hread, Option.map_none, Option.getD_none, hend, skipTo?_head h]
  | some n =>
    have hread : Enclosed.read Lexeme.lineEnd r.rest = ⟨r.rest.take n, true⟩ := by
      rw [Enclosed.read, hindex]
    have hlength := (offset_behind_mark Lexeme.lineEnd_ne_nil Lexeme.ascii_lineEnd hindex).1
    rw [hread, Option.map_some, Option.getD_some, skipTo?_head h, List.length_take,
      Nat.min_eq_left hlength]

/-- A block comment is read through the mark that ends it. -/
theorem comment?_head_of_asterisk (h : r.Stands) {more : List SourceChar}
    (hrest : r.rest = .valid '*' :: more) :
    Stepper.comment? r.head =
      some (r.bump.consumeEnclosed Lexeme.blockEnd .commentNotTerminated
        (.read Lexeme.blockEnd more)).head := by
  have hbyte : Char.ofNat r.cursor.current.toNat = '*' :=
    Cursor.ofNat_current hrest ((Cursor.current_lt_iff hrest).2 (by decide))
  have hbump : r.bump.rest = more := by rw [bump_rest, hrest, List.drop_one, List.tail_cons]
  rw [Stepper.comment?, Head.head_eq, byteChar?_head h, hbyte]
  simp only [Option.bind_eq_bind, Option.bind_some, Head.bump?_eq, bump?_head h]
  rw [if_neg (by decide), enclosed?_head h.bump Lexeme.blockEnd_ne_nil Lexeme.ascii_blockEnd, hbump]

end Reading

end Lexis
