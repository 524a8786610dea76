import Lexis.Proofs.Stepwise.Moves

/-!
# Going over a stretch step by step

A head that goes over a stretch at once cuts out its text, searches the bytes of the text for NULs
and the issues of the source for the stretch, and counts on from where it stands to each place that
it found and to the end. All these offsets stand between characters, and counting to one gives the
position of the character there (`Head.locate?_eq_some`). So the head becomes that of the reading
that skips the stretch (`Reading.skipTo?_head`).
-/

namespace Lexis

/-! ## Counting to an offset -/

namespace Head

theorem lastIndexOf?_eq_none {b : UInt8} {bytes : List UInt8} (h : b ∉ bytes) :
    lastIndexOf? b bytes = none := by
  induction bytes with
  | nil => rfl
  | cons c bytes ih =>
    rw [List.mem_cons, not_or] at h
    rw [lastIndexOf?, ih h.2]
    exact if_neg (Ne.symm h.1)

/-- The last place of a byte is the one with no such byte behind it. -/
theorem lastIndexOf?_append {b : UInt8} {bytes more : List UInt8} (h : b ∉ more) :
    lastIndexOf? b (bytes ++ b :: more) = some bytes.length := by
  induction bytes with
  | nil =>
    rw [List.nil_append, lastIndexOf?, lastIndexOf?_eq_none h]
    exact if_pos rfl
  | cons c bytes ih =>
    rw [List.cons_append, lastIndexOf?, ih]
    rfl

theorem newline_not_mem_encodeChar {c : Char} (h : c ≠ '\n') : 0x0A ∉ String.utf8EncodeChar c := by
  intro hmem
  have hc := Utf8.toNat_of_mem_encodeChar hmem (by decide)
  exact h (Char.toNat_inj.1 hc)

theorem newline_not_mem_bytesOf {text : List Char} (h : '\n' ∉ text) :
    0x0A ∉ Utf8.bytesOf text := by
  intro hmem
  obtain ⟨c, hc, hmem⟩ := List.mem_flatMap.1 hmem
  refine newline_not_mem_encodeChar ?_ hmem
  intro he
  exact h (he ▸ hc)

/-- There are as many line ends among the bytes of a text as among its characters. -/
theorem count_bytesOf (text : List Char) :
    (Utf8.bytesOf text).count 0x0A = text.count '\n' := by
  induction text with
  | nil => rfl
  | cons c text ih =>
    rw [Utf8.bytesOf_cons, List.count_append, ih, List.count_cons, Nat.add_comm]
    by_cases hc : c = '\n'
    · rw [hc]
      rfl
    · rw [List.count_eq_zero.2 (newline_not_mem_encodeChar hc), if_neg (by simpa using hc)]

/-- Counting on to the end of a text gives the position behind the text. -/
theorem locate?_eq_some {h : Head} {known : Position} {offset : Nat} {text : List Char}
    (hslice : h.source.slice? known.offset offset = some text)
    (hoffset : offset = known.offset + byteSize text) :
    h.locate? known offset = some (known.locate text) := by
  rw [locate?, hslice]
  simp only [Option.bind_eq_bind, Option.bind_some, Option.pure_def]
  by_cases hmem : '\n' ∈ text
  · obtain ⟨behind, before, hreverse, hbehind⟩ :=
      List.eq_append_cons_of_mem (List.mem_reverse.2 hmem)
    have htext : text = before.reverse ++ '\n' :: behind.reverse := by
      rw [← List.reverse_reverse text, hreverse]
      simp
    have hlast : lastIndexOf? 0x0A (Utf8.bytesOf text) = some (byteSize before.reverse) := by
      rw [htext, Utf8.bytesOf_append, Utf8.bytesOf_cons, ← Utf8.length_bytesOf]
      exact lastIndexOf?_append (newline_not_mem_bytesOf (by simpa using hbehind))
    -- the text is cut behind its last line end
    have hline : (Source.ofText text).slice? (byteSize before.reverse + 1)
        (Utf8.bytesOf text).length = some behind.reverse := by
      have hchars : (Source.ofText text).chars =
          (before.reverse ++ ['\n']).map .valid ++ behind.reverse.map .valid ++ [] := by
        rw [List.append_nil, ← List.map_append, Source.ofText, htext]
        simp
      have hjoin : before.reverse ++ ['\n'] ++ behind.reverse = text := by simp [htext]
      have hcut := Source.slice?_of_chars_eq hchars
      rw [← List.map_append, plainText_map_valid, plainText_map_valid, plainText_map_valid, hjoin,
        byteSize_append] at hcut
      rw [Utf8.length_bytesOf]
      exact hcut
    have hcount : text.count '\n' ≠ 0 := fun h => List.count_eq_zero.1 h hmem
    have hcolumn : text.reverse.takeWhile (· != '\n') = behind := by
      have hall : ∀ c ∈ behind, (c != '\n') = true := by
        intro c hc
        simpa using fun he : c = '\n' => hbehind (he ▸ hc)
      rw [hreverse, List.takeWhile_append_of_pos hall]
      simp
    rw [hlast]
    simp only [hline, Option.bind_some, count_bytesOf, Position.locate, if_neg hcount, hcolumn,
      List.length_reverse, hoffset]
  · have hcount : text.count '\n' = 0 := List.count_eq_zero.2 hmem
    rw [lastIndexOf?_eq_none (newline_not_mem_bytesOf hmem)]
    simp only [Position.locate, hcount, if_true, Nat.add_zero, hoffset]

/-! ## Finding the faulty characters -/

theorem offsetsOfByte_append (b : UInt8) (offset : Nat) (bytes more : List UInt8) :
    offsetsOfByte b offset (bytes ++ more) =
      offsetsOfByte b offset bytes ++ offsetsOfByte b (offset + bytes.length) more := by
  induction bytes generalizing offset with
  | nil => rfl
  | cons c bytes ih =>
    rw [List.cons_append, offsetsOfByte, offsetsOfByte, ih, List.append_assoc, List.length_cons]
    congr 3
    omega

theorem offsetsOfByte_eq_nil {b : UInt8} (offset : Nat) {bytes : List UInt8} (h : b ∉ bytes) :
    offsetsOfByte b offset bytes = [] := by
  induction bytes generalizing offset with
  | nil => rfl
  | cons c bytes ih =>
    rw [List.mem_cons, not_or] at h
    rw [offsetsOfByte, ih (offset + 1) h.2, if_neg (Ne.symm h.1)]
    rfl

/-- The zeros among the bytes of a stretch of source are its NULs. -/
theorem offsetsOfByte_zero (offset : Nat) (chunk : List SourceChar) :
    offsetsOfByte 0 offset (Utf8.bytesOf (plainText chunk)) =
      offsetsFrom SourceChar.isNul offset chunk := by
  induction chunk generalizing offset with
  | nil => rfl
  | cons c chunk ih =>
    rw [plainText_cons, Utf8.bytesOf_cons, offsetsOfByte_append, ih, offsetsFrom_cons,
      String.length_utf8EncodeChar]
    congr 1
    by_cases hnul : c.isNul = true
    · rw [if_pos hnul]
      rw [SourceChar.isNul, beq_iff_eq] at hnul
      rw [hnul]
      rfl
    · rw [if_neg hnul]
      refine offsetsOfByte_eq_nil offset fun hmem => hnul ?_
      rw [SourceChar.isNul, beq_iff_eq]
      exact Lexeme.eq_valid_of_char_eq (Utf8.eq_nul_of_zero_mem_encodeChar hmem) (by decide)

end Head

namespace SourceChar

theorem lt_of_mem_faultsFrom {index : Nat} {chunk : List SourceChar} {found : Nat × Fault}
    (h : found ∈ faultsFrom index chunk) : found.1 < index + chunk.length := by
  induction chunk generalizing index with
  | nil => cases h
  | cons c chunk ih =>
    rw [faultsFrom_cons, List.mem_append] at h
    rw [List.length_cons]
    rcases h with h | h
    · rw [Option.mem_toList, Option.map_eq_some_iff] at h
      obtain ⟨fault, -, rfl⟩ := h
      dsimp only
      omega
    · have hlt := ih h
      omega

/-- Where a character found by its index starts. -/
def placeWithin (offset : Nat) (chunk : List SourceChar) (found : Nat × Fault) : Nat × Fault :=
  (offset + byteSize (plainText (chunk.take found.1)), found.2)

/-- A search for characters by index and one by offset find the same. -/
theorem map_searchFrom (holds : SourceChar → Bool) (fault : Fault) (offset : Nat)
    (before chunk : List SourceChar) :
    (searchFrom holds fault before.length chunk).map (placeWithin offset (before ++ chunk)) =
      (offsetsFrom holds (offset + byteSize (plainText before)) chunk).map (·, fault) := by
  induction chunk generalizing before with
  | nil => rfl
  | cons c chunk ih =>
    -- the character moves over to those before, which is where the next index is counted from
    have hsnoc : before ++ c :: chunk = (before ++ [c]) ++ chunk := by simp
    have hlength : before.length + 1 = (before ++ [c]).length := by simp
    have hsize : offset + byteSize (plainText (before ++ [c])) =
        offset + byteSize (plainText before) + c.size := by
      rw [plainText_append, byteSize_append, Nat.add_assoc]
      rfl
    have hrest := ih (before ++ [c])
    rw [← hlength, ← hsnoc, hsize] at hrest
    rw [searchFrom_cons, offsetsFrom_cons, List.map_append, List.map_append, hrest]
    congr 1
    split
    · simp [placeWithin]
    · rfl

/-- Going over characters makes the offset grow. -/
theorem byteSize_take_le_iff {chunk : List SourceChar} {i j : Nat} (hi : i < chunk.length)
    (hj : j < chunk.length) :
    byteSize (plainText (chunk.take i)) ≤ byteSize (plainText (chunk.take j)) ↔ i ≤ j := by
  induction chunk generalizing i j with
  | nil => cases hi
  | cons c chunk ih =>
    have hc := c.char.utf8Size_pos
    rw [List.length_cons] at hi hj
    cases i with
    | zero => simp
    | succ i =>
      cases j with
      | zero => simp; omega
      | succ j =>
        rw [List.take_succ_cons, List.take_succ_cons, plainText_cons, plainText_cons,
          byteSize_cons, byteSize_cons, Nat.add_le_add_iff_left, ih (by omega) (by omega)]
        omega

end SourceChar

/-- An optional function that gives something for every element of a list gives it for the list. -/
theorem mapM_eq_some {α β : Type} {f : α → Option β} {g : α → β} {l : List α}
    (h : ∀ a ∈ l, f a = some (g a)) : l.mapM f = some (l.map g) := by
  induction l with
  | nil => rfl
  | cons a l ih =>
    have hl := ih fun b hb => h b (List.mem_cons_of_mem _ hb)
    simp [List.mapM_cons, h a List.mem_cons_self, hl]

namespace Reading

variable {r : Reading}

/-- The offset of the reading that has come `n` characters further. -/
theorem offset_advance_eq (r : Reading) (n : Nat) :
    (r.cursor.advance n).position.offset =
      r.position.offset + byteSize (plainText (r.rest.take n)) := by
  rw [Cursor.advance_position, Position.locate_offset]

theorem slice?_head (h : r.Stands) (n : Nat) :
    r.cursor.source.slice? r.position.offset (r.cursor.advance n).position.offset =
      some (plainText (r.rest.take n)) := by
  obtain ⟨m, hm⟩ := h
  have hslice := r.cursor.source.slice?_advance m n
  rw [← Cursor.advance_advance, ← Cursor.advance_rest, ← hm] at hslice
  exact hslice

theorem offset_advance_le_size (h : r.Stands) (n : Nat) :
    (r.cursor.advance n).position.offset ≤ r.cursor.source.size := by
  obtain ⟨m, hm⟩ := h
  have hle := r.cursor.source.offset_advance_le_size (m + n)
  rwa [← Cursor.advance_advance, ← hm] at hle

/-- The end of the source is where nothing is left to read. -/
theorem size_eq_offset (h : r.Stands) :
    r.cursor.source.size = (r.cursor.advance r.rest.length).position.offset := by
  obtain ⟨m, hm⟩ := h
  have hrest : (r.cursor.source.cursor.advance (m + r.rest.length)).rest = [] := by
    rw [← Cursor.advance_advance, ← hm]
    exact List.drop_length
  have hend := r.cursor.source.offset_advance_of_rest_eq_nil hrest
  rw [← Cursor.advance_advance, ← hm] at hend
  exact hend.symm

/-- Counting on from a head to a character ahead of it. -/
theorem locate?_head (h : r.Stands) (n : Nat) :
    r.head.locate? r.position (r.cursor.advance n).position.offset =
      some (r.position.locate (plainText (r.rest.take n))) :=
  Head.locate?_eq_some (slice?_head h n) (r.offset_advance_eq n)

/-- The issues of the source between two characters are those of the replaced characters there. -/
theorem issues_head (h : r.Stands) (n : Nat) :
    ((r.cursor.source.issues.filter fun issue =>
        issue.kind == .invalidUtf8 && r.position.offset ≤ issue.position &&
          issue.position < (r.cursor.advance n).position.offset).map fun issue =>
            (issue.position, Fault.invalidUtf8)) =
      (offsetsFrom SourceChar.isReplaced r.position.offset (r.rest.take n)).map
        (·, Fault.invalidUtf8) := by
  obtain ⟨m, hm⟩ := h
  have hoffsets := r.cursor.source.filter_offsetsOf_advance (p := SourceChar.isReplaced) m n
  rw [← Cursor.advance_advance, ← Cursor.advance_rest, ← hm, ← Source.offsets_issues,
    List.filter_map, List.filter_filter] at hoffsets
  have hmap := congrArg (List.map (·, Fault.invalidUtf8)) hoffsets
  rw [List.map_map] at hmap
  refine Eq.trans ?_ hmap
  congr 1
  refine List.filter_congr fun issue _ => ?_
  simp [Bool.and_comm, Bool.and_assoc, Bool.decide_and]

/-- Two searches, one in the bytes and one in the issues, find what the two searches in the
characters do. -/
theorem faultsUpTo_head (h : r.Stands) (n : Nat) :
    r.head.faultsUpTo (r.cursor.advance n).position.offset (plainText (r.rest.take n)) =
      (SourceChar.faultsWithin (r.rest.take n)).map
        (SourceChar.placeWithin r.position.offset (r.rest.take n)) := by
  have hnuls := SourceChar.map_searchFrom SourceChar.isNul .nulCharacter r.position.offset []
    (r.rest.take n)
  have hinvalid := SourceChar.map_searchFrom SourceChar.isReplaced .invalidUtf8 r.position.offset []
    (r.rest.take n)
  simp only [List.length_nil, List.nil_append, plainText_nil, byteSize_nil, Nat.add_zero]
    at hnuls hinvalid
  have hsorted : ∀ a ∈ SourceChar.searchFrom SourceChar.isNul .nulCharacter 0 (r.rest.take n) ++
        SourceChar.searchFrom SourceChar.isReplaced .invalidUtf8 0 (r.rest.take n),
      a.1 < (r.rest.take n).length := by
    intro a ha
    have hmem := (SourceChar.perm_faultsFrom 0 (r.rest.take n)).mem_iff.1 ha
    have hlt := SourceChar.lt_of_mem_faultsFrom hmem
    omega
  have hfaults : SourceChar.faultsWithin (r.rest.take n) =
      (SourceChar.searchFrom SourceChar.isNul .nulCharacter 0 (r.rest.take n) ++
        SourceChar.searchFrom SourceChar.isReplaced .invalidUtf8 0 (r.rest.take n)).mergeSort
          fun a b => a.1 ≤ b.1 := rfl
  -- offsets are in the same order as indices, so sorting by either is the same
  rw [hfaults, List.map_mergeSort (s := fun a b => a.1 ≤ b.1), List.map_append, hnuls, hinvalid,
    ← Head.offsetsOfByte_zero, ← issues_head h]
  · rfl
  · intro a ha b hb
    have hle := SourceChar.byteSize_take_le_iff (hsorted a ha) (hsorted b hb)
    simp only [SourceChar.placeWithin, Nat.add_le_add_iff_left, hle]

/-- The faults on the way are located where the reading reports them. -/
theorem mapM_faultsUpTo_head (h : r.Stands) (n : Nat) :
    (r.head.faultsUpTo (r.cursor.advance n).position.offset
        (plainText (r.rest.take n))).mapM (fun (offset, fault) =>
          (r.head.locate? r.head.position offset).map (Report.mk · fault)) =
      some ((SourceChar.faultsWithin (r.rest.take n)).map fun (index, fault) =>
        Report.mk (r.position.locate (plainText ((r.rest.take n).take index))) fault) := by
  rw [faultsUpTo_head h n, List.mapM_map]
  refine mapM_eq_some fun found hfound => ?_
  rw [SourceChar.faultsWithin_eq] at hfound
  have hlt := SourceChar.lt_of_mem_faultsFrom hfound
  have htake : (r.rest.take n).take found.1 = r.rest.take found.1 := by
    rw [List.length_take] at hlt
    rw [List.take_take, Nat.min_eq_left (by omega)]
  have hlocate := locate?_head h found.1
  rw [offset_advance_eq] at hlocate
  simp only [SourceChar.placeWithin, Function.comp, htake]
  exact congrArg (Option.map (Report.mk · found.2)) hlocate

/-- Counting on to a character ahead, or staying where nothing lies ahead. -/
theorem locate?_head_unless (h : r.Stands) (n : Nat) :
    (if (r.cursor.advance n).position.offset ≤ r.head.position.offset then some r.head.position
      else r.head.locate? r.head.position (r.cursor.advance n).position.offset) =
      some (r.cursor.advance n).position := by
  split
  · next hle =>
    have hnone : plainText (r.rest.take n) = [] := by
      have hoffset := r.offset_advance_eq n
      have hhead : r.head.position.offset = r.position.offset := rfl
      have hlength := length_le_byteSize (plainText (r.rest.take n))
      exact List.length_eq_zero_iff.1 (by omega)
    rw [Cursor.advance_position, hnone, Position.locate_nil]
    rfl
  · exact locate?_head h n

/-- Going to a place at once is skipping what stands before it. -/
theorem skipTo?_head (h : r.Stands) (n : Nat) :
    r.head.skipTo? (r.cursor.advance n).position.offset = some (r.skip n).head := by
  have hlast : min (r.cursor.advance n).position.offset r.head.source.size =
      (r.cursor.advance n).position.offset :=
    Nat.min_eq_left (offset_advance_le_size h n)
  have hslice : r.head.source.slice? r.head.position.offset
      (r.cursor.advance n).position.offset = some (plainText (r.rest.take n)) :=
    slice?_head h n
  have hmove := locate?_head_unless h n
  rw [Head.skipTo?]
  simp only [hlast, hslice, mapM_faultsUpTo_head h n, Option.bind_eq_bind, Option.bind_some]
  by_cases hle : (r.cursor.advance n).position.offset ≤ r.head.position.offset
  · rw [if_pos hle] at hmove ⊢
    rw [Option.some.inj hmove]
    rfl
  · rw [if_neg hle] at hmove ⊢
    rw [hmove]
    rfl

end Reading

end Lexis
