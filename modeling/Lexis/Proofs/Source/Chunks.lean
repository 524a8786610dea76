import Mathlib.Algebra.GroupWithZero.Nat
import Lexis.Proofs.Source.Bytes
import Lexis.Proofs.Source.Offsets
import Lexis.Proofs.Source.Sequences

/-!
# Decoding in chunks

Bytes fall into chunks, each a run of characters and the ill-formed bytes that end it
(`Utf8.IsChunking`), in just one way (`Utf8.isChunking_iff`). A source can be put together from them
one after the other (`Utf8.Draft.add`), noting where ill-formed bytes were replaced, and how many.
That is all that is lost: put back at the places that were noted, they give the bytes that there
were (`Utf8.exchange`, `Source.ofBytes_lossless`).
-/

namespace Lexis

namespace Utf8

/-! ## Chunks -/

/-- A run of characters, and the bytes behind it that are no UTF-8. -/
structure Chunk where
  valid : List Char
  /-- Empty at the end of the bytes. -/
  invalid : List UInt8
deriving DecidableEq, Repr

namespace Chunk

/-- The bytes that the chunk was read from. -/
def bytes (chunk : Chunk) : List UInt8 :=
  bytesOf chunk.valid ++ chunk.invalid

/-- The characters that the chunk is decoded to. -/
def chars (chunk : Chunk) : List SourceChar :=
  chunk.valid.map .valid ++ if chunk.invalid = [] then [] else [.replaced chunk.invalid]

/-- The text that the chunk shows. -/
def text (chunk : Chunk) : List Char :=
  chunk.valid ++ if chunk.invalid = [] then [] else [SourceChar.replacement]

theorem plainText_chars (chunk : Chunk) : plainText chunk.chars = chunk.text := by
  rw [chars, text, plainText_append, plainText_map_valid]
  split
  · rfl
  · rfl

theorem plainText_flatMap_chars (chunks : List Chunk) :
    plainText (chunks.flatMap chars) = chunks.flatMap text := by
  induction chunks with
  | nil => rfl
  | cons chunk chunks ih =>
    rw [List.flatMap_cons, List.flatMap_cons, plainText_append, plainText_chars, ih]

end Chunk

/-- The bytes fall into these chunks: each run of characters ends with ill-formed bytes, or at the
end. -/
inductive IsChunking : List UInt8 → List Chunk → Prop where
  | nil : IsChunking [] []
  | last {valid : List Char} (hvalid : valid ≠ []) : IsChunking (bytesOf valid) [⟨valid, []⟩]
  | cons (valid : List Char) {invalid rest : List UInt8} {chunks : List Chunk}
    (hinvalid : IsIllFormed invalid rest) (hrest : IsChunking rest chunks) :
    IsChunking (bytesOf valid ++ (invalid ++ rest)) (⟨valid, invalid⟩ :: chunks)

/-- Chunks with a character before them. -/
def prepend (c : Char) : List Chunk → List Chunk
  | [] => [⟨[c], []⟩]
  | chunk :: later => ⟨c :: chunk.valid, chunk.invalid⟩ :: later

/-- The chunks that characters make up. -/
def chunksOf : List SourceChar → List Chunk
  | [] => []
  | .valid c :: rest => prepend c (chunksOf rest)
  | .replaced bytes :: rest => ⟨[], bytes⟩ :: chunksOf rest

/-- The chunks that bytes fall into. -/
def chunks (bytes : List UInt8) : List Chunk :=
  chunksOf (decode bytes)

theorem IsChunking.prepend {bytes : List UInt8} {chunks : List Chunk} (h : IsChunking bytes chunks)
    (c : Char) : IsChunking (String.utf8EncodeChar c ++ bytes) (prepend c chunks) := by
  cases h with
  | nil => exact IsChunking.last (List.cons_ne_nil c [])
  | last hvalid => exact IsChunking.last (List.cons_ne_nil c _)
  | cons valid hinvalid hrest =>
    rw [← List.append_assoc]
    exact IsChunking.cons (c :: valid) hinvalid hrest

theorem isChunking_chunks (bytes : List UInt8) : IsChunking bytes (chunks bytes) := by
  unfold chunks
  fun_induction decode bytes with
  | case1 => exact .nil
  | case2 lead rest c used hone ih =>
    have hbytes := bytes_decodeOne lead rest
    rw [hone] at hbytes
    have hwhole : c.bytes ++ rest.drop used = lead :: rest := by
      rw [hbytes, List.cons_append, List.take_append_drop]
    rw [← hwhole]
    cases c with
    | valid c => exact ih.prepend c
    | replaced bytes => exact .cons [] (isIllFormed_of_decodeOne hone) ih

/-- What bytes are decoded to, read off their chunks. -/
theorem IsChunking.decode_eq {bytes : List UInt8} {chunks : List Chunk}
    (h : IsChunking bytes chunks) : decode bytes = chunks.flatMap Chunk.chars := by
  induction h with
  | nil => rw [decode, List.flatMap_nil]
  | @last valid hvalid =>
    have hdecode := decode_bytesOf_append valid []
    rw [List.append_nil, decode] at hdecode
    rw [hdecode, List.flatMap_singleton]
    rfl
  | cons valid hinvalid hrest ih =>
    rw [decode_bytesOf_append, decode_of_isIllFormed hinvalid, ih, List.flatMap_cons, Chunk.chars,
      if_neg hinvalid.ne_nil, List.append_assoc]
    rfl

/-- Characters up to ill-formed bytes make up a chunk with them. -/
theorem chunksOf_append_replaced (valid : List Char) (invalid : List UInt8)
    (rest : List SourceChar) :
    chunksOf (valid.map .valid ++ .replaced invalid :: rest) = ⟨valid, invalid⟩ :: chunksOf rest := by
  induction valid with
  | nil => rfl
  | cons c valid ih =>
    rw [List.map_cons, List.cons_append, chunksOf, ih]
    rfl

/-- Characters up to the end make up a chunk by themselves. -/
theorem chunksOf_map_valid {valid : List Char} (h : valid ≠ []) :
    chunksOf (valid.map .valid) = [⟨valid, []⟩] := by
  induction valid with
  | nil => exact absurd rfl h
  | cons c valid ih =>
    cases valid with
    | nil => rfl
    | cons d valid =>
      rw [List.map_cons, chunksOf, ih (List.cons_ne_nil d valid)]
      rfl

/-- Bytes fall into chunks in one way. -/
theorem isChunking_iff {bytes : List UInt8} {split : List Chunk} :
    IsChunking bytes split ↔ split = chunks bytes := by
  constructor
  · intro h
    rw [chunks, h.decode_eq]
    induction h with
    | nil => rfl
    | @last valid hvalid =>
      rw [List.flatMap_singleton, Chunk.chars, if_pos rfl, List.append_nil,
        chunksOf_map_valid hvalid]
    | @cons valid invalid rest later hinvalid hrest ih =>
      rw [List.flatMap_cons, Chunk.chars, if_neg hinvalid.ne_nil, List.append_assoc,
        List.singleton_append, chunksOf_append_replaced, ← ih]
  · rintro rfl
    exact isChunking_chunks bytes

/-- A character that breaks off is ill-formed up to where it does. -/
example : chunks [0x61, 0xE2, 0x82, 0xFF, 0x62] =
    [⟨['a'], [0xE2, 0x82]⟩, ⟨[], [0xFF]⟩, ⟨['b'], []⟩] := by
  decide +kernel

theorem decode_eq_flatMap (bytes : List UInt8) :
    decode bytes = (chunks bytes).flatMap Chunk.chars :=
  (isChunking_chunks bytes).decode_eq

/-! ## Putting a source together -/

/-- A text that is being put together, and what was noted about its encoding. -/
structure Draft where
  text : List Char
  issues : List Issue
deriving DecidableEq, Repr

/-- Adds a chunk. A byte order mark is looked for as long as there is no text. -/
def Draft.add (draft : Draft) (chunk : Chunk) : Draft :=
  let marked :=
    if draft.text = [] ∧ chunk.valid.head? = some Source.byteOrderMark then
      draft.issues ++ [⟨.byteOrderMark, 0, Source.byteOrderMark.utf8Size⟩]
    else draft.issues
  let text := draft.text ++ chunk.valid
  if chunk.invalid = [] then ⟨text, marked⟩
  else ⟨text ++ [SourceChar.replacement],
    marked ++ [⟨.invalidUtf8, byteSize text, chunk.invalid.length⟩]⟩

theorem invalidFrom_chars (offset : Nat) (chunk : Chunk) :
    Source.invalidFrom offset chunk.chars =
      if chunk.invalid = [] then []
      else [⟨.invalidUtf8, offset + byteSize chunk.valid, chunk.invalid.length⟩] := by
  rw [Chunk.chars, Source.invalidFrom_append, Source.invalidFrom_map_valid, plainText_map_valid,
    List.nil_append]
  split
  · rfl
  · rfl

/-- What is noted of a chunk: a byte order mark at the very start, and its ill-formed bytes. -/
theorem Draft.add_eq (draft : Draft) (chunk : Chunk) :
    draft.add chunk = ⟨draft.text ++ chunk.text,
      draft.issues ++
        (if draft.text = [] ∧ chunk.valid.head? = some Source.byteOrderMark then
          [⟨.byteOrderMark, 0, Source.byteOrderMark.utf8Size⟩] else []) ++
        Source.invalidFrom (byteSize draft.text) chunk.chars⟩ := by
  rw [invalidFrom_chars, add, Chunk.text]
  split_ifs <;> simp

theorem Draft.foldl_add {draft : Draft} (h : draft.text ≠ []) (chunks : List Chunk) :
    chunks.foldl add draft = ⟨draft.text ++ chunks.flatMap Chunk.text,
      draft.issues ++
        Source.invalidFrom (byteSize draft.text) (chunks.flatMap Chunk.chars)⟩ := by
  induction chunks generalizing draft with
  | nil => simp [Source.invalidFrom]
  | cons chunk chunks ih =>
    have hadd : draft.add chunk = ⟨draft.text ++ chunk.text,
        draft.issues ++ Source.invalidFrom (byteSize draft.text) chunk.chars⟩ := by
      rw [add_eq, if_neg fun hempty => h hempty.1, List.append_nil]
    rw [List.foldl_cons, hadd, ih (by simp [h]), List.flatMap_cons, List.flatMap_cons,
      Source.invalidFrom_append, Chunk.plainText_chars, byteSize_append, List.append_assoc,
      List.append_assoc]

end Utf8

/-- A source that is read from bytes is what is put together from their chunks. -/
theorem Source.foldl_add_chunks (bytes : List UInt8) :
    (Utf8.chunks bytes).foldl Utf8.Draft.add ⟨[], []⟩ =
      ⟨(ofBytes bytes).text, (ofBytes bytes).issues⟩ := by
  have hchars : (ofBytes bytes).chars = (Utf8.chunks bytes).flatMap Utf8.Chunk.chars :=
    Utf8.decode_eq_flatMap bytes
  have hchunking := Utf8.isChunking_chunks bytes
  rw [text, issues, isMarked, hchars]
  cases hchunks : Utf8.chunks bytes with
  | nil => rfl
  | cons chunk later =>
    have htext : chunk.text ≠ [] := by
      rw [hchunks] at hchunking
      cases hchunking with
      | last hvalid => simp [Utf8.Chunk.text, hvalid]
      | cons valid hinvalid hrest => simp [Utf8.Chunk.text, hinvalid.ne_nil]
    have hmarked : (((chunk :: later).flatMap Utf8.Chunk.chars).head? ==
        some (.valid byteOrderMark)) = decide (chunk.valid.head? = some byteOrderMark) := by
      obtain ⟨valid, invalid⟩ := chunk
      rw [Bool.eq_iff_iff, beq_iff_eq, decide_eq_true_iff]
      cases valid with
      | nil =>
        have hinvalid : invalid ≠ [] := by
          rintro rfl
          exact htext rfl
        simp [Utf8.Chunk.chars, hinvalid]
      | cons c valid => simp [Utf8.Chunk.chars]
    have hdraft : Utf8.Draft.add ⟨[], []⟩ chunk = ⟨chunk.text,
        (if chunk.valid.head? = some byteOrderMark then
          [⟨.byteOrderMark, 0, byteOrderMark.utf8Size⟩] else []) ++
        invalidFrom 0 chunk.chars⟩ := by
      simp [Utf8.Draft.add_eq]
    rw [List.foldl_cons, hdraft, Utf8.Draft.foldl_add htext, hmarked,
      Utf8.Chunk.plainText_flatMap_chars, List.flatMap_cons, List.flatMap_cons,
      invalidFrom_append, Utf8.Chunk.plainText_chars, Nat.zero_add, List.append_assoc]
    simp only [decide_eq_true_eq]

/-! ## Putting the bytes back -/

namespace Utf8

/-- The bytes with those of a replacement character, at each of the offsets, exchanged for the ones
that go with it. The first `offset` bytes have been left out. -/
def exchange (offset : Nat) (bytes : List UInt8) : List (Nat × List UInt8) → List UInt8
  | [] => bytes
  | (position, replaced) :: later =>
    bytes.take (position - offset) ++ replaced ++
      exchange (position + SourceChar.replacement.utf8Size)
        (bytes.drop (position - offset + SourceChar.replacement.utf8Size)) later

/-- The issues about ill-formed bytes that chunks end with, where their text starts at `offset`. -/
def issuesFrom (offset : Nat) : List Chunk → List Issue
  | [] => []
  | chunk :: later =>
    (if chunk.invalid = [] then []
      else [⟨.invalidUtf8, offset + byteSize chunk.valid, chunk.invalid.length⟩]) ++
      issuesFrom (offset + byteSize chunk.text) later

/-- The ill-formed bytes that chunks end with. -/
def illFormed (chunks : List Chunk) : List (List UInt8) :=
  (chunks.map Chunk.invalid).filter (· ≠ [])

theorem invalidFrom_flatMap_chars (offset : Nat) (chunks : List Chunk) :
    Source.invalidFrom offset (chunks.flatMap Chunk.chars) = issuesFrom offset chunks := by
  induction chunks generalizing offset with
  | nil => rfl
  | cons chunk chunks ih =>
    rw [List.flatMap_cons, Source.invalidFrom_append, invalidFrom_chars, Chunk.plainText_chars, ih,
      issuesFrom]

theorem illFormed_cons (chunk : Chunk) (later : List Chunk) :
    illFormed (chunk :: later) =
      (if chunk.invalid = [] then [] else [chunk.invalid]) ++ illFormed later := by
  rw [illFormed, List.map_cons, List.filter_cons]
  split_ifs <;> simp_all [illFormed]

theorem map_length_issuesFrom (offset : Nat) (chunks : List Chunk) :
    (issuesFrom offset chunks).map Issue.length = (illFormed chunks).map List.length := by
  induction chunks generalizing offset with
  | nil => rfl
  | cons chunk chunks ih =>
    rw [issuesFrom, illFormed_cons, List.map_append, List.map_append, ih]
    split
    · rfl
    · rfl

/-- Bytes before all the offsets stay. -/
theorem exchange_append {offset : Nat} (front bytes : List UInt8)
    {places : List (Nat × List UInt8)} (h : ∀ place ∈ places, offset + front.length ≤ place.1) :
    exchange offset (front ++ bytes) places =
      front ++ exchange (offset + front.length) bytes places := by
  cases places with
  | nil => rfl
  | cons place places =>
    obtain ⟨n, hn⟩ := Nat.exists_eq_add_of_le (h place List.mem_cons_self)
    have hoffset : place.1 - offset = front.length + n := by omega
    have hn' : place.1 - (offset + front.length) = n := by omega
    rw [exchange, exchange, hoffset, hn', List.take_length_add_append, Nat.add_assoc,
      List.drop_length_add_append, List.append_assoc, List.append_assoc, List.append_assoc]

theorem le_of_mem_issuesFrom {offset o : Nat} {chunks : List Chunk}
    (h : o ∈ (issuesFrom offset chunks).map Issue.position) : offset ≤ o := by
  rw [← invalidFrom_flatMap_chars, Source.map_position_invalidFrom] at h
  exact le_of_mem_offsetsFrom h

/-- The text of chunks turns into their bytes when the ill-formed ones are put back. -/
theorem exchange_issuesFrom (offset : Nat) (chunks : List Chunk) :
    exchange offset (bytesOf (chunks.flatMap Chunk.text))
      (((issuesFrom offset chunks).map Issue.position).zip (illFormed chunks)) =
      chunks.flatMap Chunk.bytes := by
  induction chunks generalizing offset with
  | nil => rfl
  | cons chunk chunks ih =>
    have hlength : (bytesOf chunk.valid).length = byteSize chunk.valid := length_bytesOf _
    rw [List.flatMap_cons, List.flatMap_cons, bytesOf_append, Chunk.text, Chunk.bytes,
      bytesOf_append, issuesFrom, illFormed_cons, List.append_assoc]
    by_cases hinvalid : chunk.invalid = []
    · have hplaces : ∀ place ∈ ((issuesFrom (offset + byteSize chunk.valid) chunks).map
          Issue.position).zip (illFormed chunks), offset + (bytesOf chunk.valid).length ≤ place.1 := by
        intro place hplace
        rw [hlength]
        exact le_of_mem_issuesFrom (List.of_mem_zip hplace).1
      have htext : chunk.text = chunk.valid := by
        rw [Chunk.text, if_pos hinvalid, List.append_nil]
      rw [if_pos hinvalid, if_pos hinvalid, if_pos hinvalid, htext, hinvalid, bytesOf_nil,
        List.nil_append, List.nil_append, List.nil_append, exchange_append _ _ hplaces, hlength, ih,
        List.append_nil]
    · have hafter : offset + byteSize chunk.valid + SourceChar.replacement.utf8Size =
          offset + byteSize chunk.text := by
        rw [Chunk.text, if_neg hinvalid, byteSize_append, Nat.add_assoc]
        rfl
      have hdrop : (bytesOf chunk.valid ++ (bytesOf [SourceChar.replacement] ++
          bytesOf (chunks.flatMap Chunk.text))).drop
            (byteSize chunk.valid + SourceChar.replacement.utf8Size) =
          bytesOf (chunks.flatMap Chunk.text) := by
        rw [← hlength, List.drop_length_add_append]
        exact List.drop_left' (length_bytesOf _)
      rw [if_neg hinvalid, if_neg hinvalid, if_neg hinvalid, List.singleton_append,
        List.singleton_append, List.map_cons, List.zip_cons_cons, exchange, Nat.add_sub_cancel_left,
        hdrop, hafter, ih, ← hlength, List.take_left]

/-- Chunks have as many bytes as their text, but for those that were replaced. -/
theorem length_bytes_add (chunks : List Chunk) :
    (chunks.flatMap Chunk.bytes).length + 3 * (illFormed chunks).length =
      byteSize (chunks.flatMap Chunk.text) + ((illFormed chunks).map List.length).sum := by
  induction chunks with
  | nil => rfl
  | cons chunk chunks ih =>
    have hreplacement : byteSize [SourceChar.replacement] = 3 := rfl
    rw [List.flatMap_cons, List.flatMap_cons, illFormed_cons, List.length_append, byteSize_append,
      Chunk.bytes, Chunk.text, List.length_append, byteSize_append, length_bytesOf]
    by_cases hinvalid : chunk.invalid = []
    · rw [if_pos hinvalid, if_pos hinvalid, hinvalid, byteSize_nil, List.length_nil,
        List.nil_append]
      omega
    · rw [if_neg hinvalid, if_neg hinvalid, hreplacement, List.singleton_append, List.length_cons,
        List.map_cons, List.sum_cons]
      omega

/-- Chunks have all the bytes that fall into them. -/
theorem IsChunking.flatMap_bytes {bytes : List UInt8} {chunks : List Chunk}
    (h : IsChunking bytes chunks) : chunks.flatMap Chunk.bytes = bytes := by
  induction h with
  | nil => rfl
  | last hvalid => simp [Chunk.bytes]
  | cons valid hinvalid hrest ih =>
    rw [List.flatMap_cons, ih, Chunk.bytes, List.append_assoc]

/-- Of ill-formed bytes there are one to three. -/
theorem length_of_mem_illFormed {bytes replaced : List UInt8} {chunks : List Chunk}
    (h : IsChunking bytes chunks) (hmem : replaced ∈ illFormed chunks) :
    1 ≤ replaced.length ∧ replaced.length ≤ 3 := by
  induction h with
  | nil => cases hmem
  | last hvalid => cases hmem
  | @cons valid invalid rest later hinvalid hrest ih =>
    rw [illFormed_cons, if_neg hinvalid.ne_nil, List.singleton_append, List.mem_cons] at hmem
    rcases hmem with rfl | hmem
    · exact ⟨List.length_pos_iff.2 hinvalid.ne_nil, hinvalid.length_le⟩
    · exact ih hmem

/-- Strings are decoded to what they are. -/
theorem decode_toUTF8 (s : String) : decode s.toUTF8.data.toList = s.toList.map .valid := by
  have hbytes : s.toUTF8.data.toList = bytesOf s.toList ++ [] := by
    rw [String.toUTF8_eq_toByteArray, ← String.utf8Encode_toList, List.utf8Encode,
      List.toList_data_toByteArray, List.append_nil]
    rfl
  rw [hbytes, decode_bytesOf_append, decode, List.append_nil]

end Utf8

namespace Source

/-- An issue about ill-formed bytes stands at a replacement character. -/
theorem slice?_of_mem_invalidFrom {s : Source} {issue : Issue}
    (h : issue ∈ invalidFrom 0 s.chars) :
    s.slice? issue.position (issue.position + 3) = some [SourceChar.replacement] := by
  have hposition : issue.position ∈ offsetsFrom SourceChar.isReplaced 0 s.chars := by
    rw [← map_position_invalidFrom]
    exact List.mem_map_of_mem h
  obtain ⟨before, c, after, hchars, hreplaced, hoffset⟩ := exists_of_mem_offsetsFrom hposition
  rw [Nat.zero_add] at hoffset
  have hsplit : s.chars = before ++ [c] ++ after := by
    rw [hchars, List.append_assoc]
    rfl
  have hslice := slice?_of_chars_eq hsplit
  cases c with
  | valid c => cases hreplaced
  | replaced bytes =>
    rw [plainText_append, byteSize_append, ← hoffset] at hslice
    exact hslice

/-- Nothing is lost in decoding but what is noted. -/
theorem ofBytes_lossless (bytes : List UInt8) :
    let source := ofBytes bytes
    let chunks := Utf8.chunks bytes
    let invalid := source.issues.filter (·.kind == .invalidUtf8)
    let positions := invalid.map Issue.position
    (∀ split, Utf8.IsChunking bytes split ↔ split = chunks) ∧
      chunks.foldl Utf8.Draft.add ⟨[], []⟩ = ⟨source.text, source.issues⟩ ∧
      source.text = chunks.flatMap Utf8.Chunk.text ∧
      bytes = chunks.flatMap Utf8.Chunk.bytes ∧
      invalid = Utf8.issuesFrom 0 chunks ∧
      positions.Pairwise (· < ·) ∧
      (∀ issue ∈ invalid, 1 ≤ issue.length ∧ issue.length ≤ 3 ∧
        source.slice? issue.position (issue.position + 3) = some [SourceChar.replacement]) ∧
      invalid.map Issue.length = (Utf8.illFormed chunks).map List.length ∧
      Utf8.exchange 0 (Utf8.bytesOf source.text) (positions.zip (Utf8.illFormed chunks)) = bytes ∧
      bytes.length + 3 * invalid.length = source.size + (invalid.map Issue.length).sum ∧
      ∀ s : String, ofBytes s.toUTF8.data.toList = ofString s ∧
        (ofString s).issues.filter (·.kind == .invalidUtf8) = [] := by
  intro source chunks invalid positions
  have hchunking : Utf8.IsChunking bytes chunks := Utf8.isChunking_chunks bytes
  have hchars : source.chars = chunks.flatMap Utf8.Chunk.chars := Utf8.decode_eq_flatMap bytes
  have htext : source.text = chunks.flatMap Utf8.Chunk.text := by
    rw [text, hchars, Utf8.Chunk.plainText_flatMap_chars]
  have hissues : invalid = invalidFrom 0 source.chars := source.filter_issues
  have hinvalid : invalid = Utf8.issuesFrom 0 chunks := by
    rw [hissues, hchars, Utf8.invalidFrom_flatMap_chars]
  have hlengths : invalid.map Issue.length = (Utf8.illFormed chunks).map List.length := by
    rw [hinvalid, Utf8.map_length_issuesFrom]
  refine ⟨fun split => Utf8.isChunking_iff, foldl_add_chunks bytes, htext,
    hchunking.flatMap_bytes.symm, hinvalid, ?_, ?_, hlengths, ?_, ?_, ?_⟩
  · show (invalid.map Issue.position).Pairwise (· < ·)
    rw [hissues, map_position_invalidFrom]
    exact pairwise_offsetsFrom 0 source.chars
  · intro issue hissue
    have hlength : issue.length ∈ (Utf8.illFormed chunks).map List.length := by
      rw [← hlengths]
      exact List.mem_map_of_mem hissue
    obtain ⟨replaced, hmem, hreplaced⟩ := List.mem_map.1 hlength
    obtain ⟨hone, hthree⟩ := Utf8.length_of_mem_illFormed hchunking hmem
    rw [← hreplaced]
    rw [hissues] at hissue
    exact ⟨hone, hthree, slice?_of_mem_invalidFrom hissue⟩
  · show Utf8.exchange 0 (Utf8.bytesOf source.text)
      ((invalid.map Issue.position).zip (Utf8.illFormed chunks)) = bytes
    rw [htext, hinvalid, Utf8.exchange_issuesFrom, hchunking.flatMap_bytes]
  · have hcount : invalid.length = (Utf8.illFormed chunks).length := by
      rw [← List.length_map Issue.length, hlengths, List.length_map]
    have hsize := Utf8.length_bytes_add chunks
    rwa [hchunking.flatMap_bytes, ← htext, ← hcount, ← hlengths] at hsize
  · intro s
    refine ⟨congrArg Source.mk (Utf8.decode_toUTF8 s), ?_⟩
    rw [filter_issues]
    exact invalidFrom_map_valid 0 s.toList

end Source

end Lexis
