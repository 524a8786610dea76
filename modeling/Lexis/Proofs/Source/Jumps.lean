import Mathlib.Logic.Function.Iterate
import Mathlib.Tactic.WLOG
import Lexis.Proofs.Source.Places

/-!
# Jumps and steps

A cursor moves on a character at a time or jumps to a byte offset, and a position is counted on over
a stretch of text without moving at all. The three count alike: a jump comes to the cursor that
stepping comes to (`Cursor.ComesTo`), and counting on from a position that was passed finds the
position that a cursor has there, in one stretch or in two. The main result is
`Source.jumps_agree_with_steps`, about every cursor that any moves lead to.
-/

namespace Lexis

/-! ## Offsets between characters are places of a cursor -/

namespace Source

instance (s : Source) (offset : Nat) : Decidable (s.IsBoundary offset) :=
  inferInstanceAs (Decidable (_ = true))

/-- The characters that are found to fill a number of bytes take up just as many. -/
theorem byteSize_of_charsFilling? {bytes n : Nat} {chars : List SourceChar}
    (h : charsFilling? bytes chars = some n) : byteSize (plainText (chars.take n)) = bytes := by
  fun_induction charsFilling? bytes chars generalizing n with
  | case1 =>
    cases h
    rfl
  | case2 => cases h
  | case3 bytes c rest hle ih =>
    obtain ⟨k, hk, rfl⟩ := Option.map_eq_some_iff.1 h
    have hsize : c.size + byteSize (plainText (rest.take k)) = bytes + 1 := by
      rw [ih hk]
      omega
    rwa [List.take_succ_cons, plainText_cons, byteSize_cons]
  | case4 => cases h

/-- A text that is cut out ends between two characters, no earlier than it starts. -/
theorem isBoundary_of_slice? {s : Source} {first last : Nat} {text : List Char}
    (h : s.slice? first last = some text) : first ≤ last ∧ s.IsBoundary last := by
  unfold slice? at h
  split at h
  · next hle =>
    obtain ⟨before, hbefore, h⟩ := Option.bind_eq_some_iff.1 h
    obtain ⟨count, hcount, -⟩ := Option.bind_eq_some_iff.1 h
    have hfilled := charsFilling?_append (s.chars.take (before + count))
      (s.chars.drop (before + count))
    rw [List.take_append_drop, List.take_add, plainText_append, byteSize_append,
      byteSize_of_charsFilling? hbefore, byteSize_of_charsFilling? hcount,
      Nat.add_sub_of_le hle] at hfilled
    exact ⟨hle, Option.isSome_of_eq_some hfilled⟩
  · cases h

/-- Behind the byte order mark, a cursor comes to every offset between two characters. -/
theorem exists_offset_advance {s : Source} {offset : Nat} (h : s.IsBoundary offset)
    (hmark : s.markSize ≤ offset) :
    ∃ n ≤ s.cursor.rest.length, (s.cursor.advance n).position.offset = offset := by
  obtain ⟨k, hk⟩ := Option.isSome_iff_exists.1 h
  have hsize := byteSize_of_charsFilling? hk
  rw [s.chars_eq, List.take_append, plainText_append, byteSize_append] at hsize
  by_cases hle : s.mark.length ≤ k
  · rw [List.take_of_length_le hle, ← markSize_eq] at hsize
    refine ⟨min (k - s.mark.length) s.cursor.rest.length, Nat.min_le_right _ _, ?_⟩
    rwa [offset_advance_eq_add, ← List.take_eq_take_min]
  -- the mark takes up all that comes before the offset, and stands there as a whole
  · have hzero : k - s.mark.length = 0 := by
      omega
    rw [hzero, List.take_zero, plainText_nil, byteSize_nil, Nat.add_zero] at hsize
    have hsplit := congrArg (fun l => byteSize (plainText l)) (List.take_append_drop k s.mark)
    simp only [plainText_append, byteSize_append, ← markSize_eq] at hsplit
    refine ⟨0, Nat.zero_le _, ?_⟩
    rw [offset_advance_eq_add, List.take_zero, plainText_nil, byteSize_nil]
    omega

/-- From wherever it has come to, a cursor comes to every offset between two characters ahead. -/
theorem exists_offset_advance_add {s : Source} {m offset : Nat} (h : s.IsBoundary offset)
    (hahead : (s.cursor.advance m).position.offset ≤ offset) :
    ∃ n ≤ (s.cursor.advance m).rest.length,
      (s.cursor.advance (m + n)).position.offset = offset := by
  have hmark := (s.isTrue_advance m).markSize_le
  obtain ⟨k, hk, rfl⟩ := exists_offset_advance h (Nat.le_trans hmark hahead)
  rcases Nat.le_total m k with hle | hle
  · obtain ⟨n, rfl⟩ := Nat.exists_eq_add_of_le hle
    refine ⟨n, ?_, rfl⟩
    rw [Cursor.advance_rest, List.length_drop]
    omega
  · exact ⟨0, Nat.zero_le _, Nat.le_antisymm hahead (s.cursor.offset_advance_le hle)⟩

/-- The characters between two places of a cursor are found by the bytes that they take up. -/
theorem charsFilling?_advance (s : Source) {m n : Nat} (h : n ≤ (s.cursor.advance m).rest.length) :
    charsFilling? ((s.cursor.advance (m + n)).position.offset -
      (s.cursor.advance m).position.offset) (s.cursor.rest.drop m) = some n := by
  have hlength : ((s.cursor.rest.drop m).take n).length = n :=
    (List.length_take).trans (Nat.min_eq_left h)
  have hfilled := charsFilling?_append ((s.cursor.rest.drop m).take n)
    ((s.cursor.rest.drop m).drop n)
  rw [offset_advance_add, Nat.add_sub_cancel_left]
  rwa [List.take_append_drop, hlength] at hfilled

end Source

namespace Cursor

/-! ## Stepping until an offset is reached -/

/-- Stepping on from `c` for as long as the offset is less than `offset` comes to `after`. -/
def ComesTo (c : Cursor) (offset : Nat) (after : Cursor) : Prop :=
  ∃ steps, bump^[steps] c = after ∧ offset ≤ after.position.offset ∧
    ∀ fewer < steps, (bump^[fewer] c).position.offset < offset

/-- Whether stepping from the start comes to a position, and the cursor is no less far. -/
def HasPassed (c : Cursor) (p : Position) : Prop :=
  p.offset ≤ c.position.offset ∧ ∃ steps, (bump^[steps] c.source.cursor).position = p

/-- Steps add up to one move. -/
theorem iterate_bump (c : Cursor) (n : Nat) : bump^[n] c = c.advance n := by
  induction n with
  | zero => rfl
  | succ n ih => rw [Function.iterate_succ_apply', ih, bump_eq_advance, advance_advance]

theorem HasPassed.exists_advance {s : Source} {c : Cursor} {p : Position} (h : c.HasPassed p)
    (hc : c.source = s) : ∃ n, p = (s.cursor.advance n).position := by
  obtain ⟨-, n, rfl⟩ := h
  refine ⟨n, ?_⟩
  rw [hc, iterate_bump]

/-- Where the offset is the same, the cursor is the same. -/
theorem advance_eq_of_offset_eq {c : Cursor} {m n : Nat}
    (h : (c.advance m).position.offset = (c.advance n).position.offset) :
    c.advance m = c.advance n := by
  wlog hle : m ≤ n generalizing m n
  · exact (this h.symm (by omega)).symm
  rcases Nat.eq_or_lt_of_le hle with rfl | hlt
  · rfl
  -- the offset would have grown if anything had been left to read
  · have hrest : c.rest.length ≤ m := by
      by_contra hmore
      have := c.offset_advance_lt hlt (Nat.lt_of_not_le hmore)
      omega
    rw [advance, advance, List.drop_of_length_le hrest, List.take_of_length_le hrest,
      List.drop_of_length_le (by omega), List.take_of_length_le (by omega)]

end Cursor

/-! ## Counting on from a position -/

/-- Counting on from a place of a cursor to another finds the position that the cursor has there. -/
theorem Source.locate?_advance {s : Source} {c : Cursor} (hc : c.source = s) {m n : Nat}
    (h : (s.cursor.advance m).position.offset ≤ (s.cursor.advance n).position.offset) :
    c.locate? (s.cursor.advance m).position (s.cursor.advance n).position.offset =
      some (s.cursor.advance n).position := by
  have hforward (k : Nat) :
      c.locate? (s.cursor.advance m).position (s.cursor.advance (m + k)).position.offset =
        some (s.cursor.advance (m + k)).position := by
    rw [Cursor.locate?, hc, slice?_advance, ← Cursor.advance_advance,
      (s.cursor.advance m).advance_position k]
    rfl
  rcases Nat.le_total m n with hle | hle
  · obtain ⟨k, rfl⟩ := Nat.exists_eq_add_of_le hle
    exact hforward k
  -- with fewer characters read the offset is as large only if nothing lies between
  · have heq := Cursor.advance_eq_of_offset_eq (Nat.le_antisymm h (s.cursor.offset_advance_le hle))
    rw [← heq]
    exact hforward 0

/-! ## Moves -/

namespace Cursor

/-- The two ways of moving a cursor on. -/
inductive Move where
  | bump
  | advanceTo (offset : Nat)
deriving DecidableEq, Repr

/-- Moves a cursor on, unless it would have to stop inside a character. -/
def move? (c : Cursor) : Move → Option Cursor
  | .bump => some c.bump
  | .advanceTo offset => c.advanceTo? offset

theorem advance_zero (c : Cursor) : c.advance 0 = c := rfl

theorem exists_advance_of_advanceTo? {c after : Cursor} {offset : Nat}
    (h : c.advanceTo? offset = some after) : ∃ n, after = c.advance n := by
  simp only [advanceTo?] at h
  split at h
  · cases h
    exact ⟨0, c.advance_zero.symm⟩
  · obtain ⟨n, -, rfl⟩ := Option.map_eq_some_iff.1 h
    exact ⟨n, rfl⟩

theorem exists_advance_of_move? {c after : Cursor} {move : Move}
    (h : c.move? move = some after) : ∃ n, after = c.advance n := by
  cases move with
  | bump => exact ⟨1, (Option.some.inj h).symm.trans c.bump_eq_advance⟩
  | advanceTo offset => exact exists_advance_of_advanceTo? h

theorem exists_advance_of_moves {c after : Cursor} {moves : List Move}
    (h : moves.foldlM move? c = some after) : ∃ n, after = c.advance n := by
  induction moves generalizing c with
  | nil => exact ⟨0, (Option.some.inj h).symm⟩
  | cons move moves ih =>
    rw [List.foldlM_cons] at h
    obtain ⟨next, hnext, hafter⟩ := Option.bind_eq_some_iff.1 h
    obtain ⟨m, rfl⟩ := exists_advance_of_move? hnext
    obtain ⟨n, rfl⟩ := ih hafter
    exact ⟨m + n, c.advance_advance m n⟩

/-- A jump to an offset that does not lie ahead leaves the cursor where it is. -/
theorem advanceTo?_of_le {c : Cursor} {offset : Nat} (h : offset ≤ c.position.offset) :
    c.advanceTo? offset = some c := by
  have hle : min offset c.source.size ≤ c.position.offset := by
    omega
  rw [advanceTo?, if_pos hle]

/-- A jump to an offset between two characters is a number of steps, each but the last of which ends
short of the offset. -/
theorem exists_advanceTo?_eq {s : Source} (m : Nat) {offset : Nat}
    (h : s.IsBoundary (min offset s.size)) :
    ∃ n, (s.cursor.advance m).advanceTo? offset = some (s.cursor.advance (m + n)) ∧
      min offset s.size ≤ (s.cursor.advance (m + n)).position.offset ∧
      ∀ k < n, (s.cursor.advance (m + k)).position.offset < min offset s.size := by
  by_cases hle : min offset s.size ≤ (s.cursor.advance m).position.offset
  · exact ⟨0, if_pos hle, hle, fun k hk => absurd hk (Nat.not_lt_zero k)⟩
  · obtain ⟨n, hn, htarget⟩ := Source.exists_offset_advance_add h (Nat.le_of_not_le hle)
    refine ⟨n, ?_, Nat.le_of_eq htarget.symm, ?_⟩
    · have hsource : (s.cursor.advance m).source = s := rfl
      simp only [advanceTo?, hsource, if_neg hle, advance_rest]
      rw [← htarget, s.charsFilling?_advance hn, Option.map_some, advance_advance]
    · intro k hk
      rw [← htarget, ← advance_advance, ← advance_advance]
      exact (s.cursor.advance m).offset_advance_lt hk (Nat.lt_of_lt_of_le hk hn)

end Cursor

/-! ## Jumps agree with steps -/

/-- Wherever moves have led a cursor, a jump comes to where stepping comes to, goes neither back nor
beyond the end and does nothing where its target does not lie ahead. Counting on from a position
that was passed finds the position of every cursor at the offset, also by way of a third offset. -/
theorem Source.jumps_agree_with_steps {s : Source} {moves : List Cursor.Move} {c : Cursor}
    (h : moves.foldlM Cursor.move? s.cursor = some c) :
    (∀ n, s.IsBoundary (min n s.size) →
      ∃ after, c.advanceTo? n = some after ∧ c.ComesTo (min n s.size) after) ∧
    (∀ n ≤ c.position.offset, c.advanceTo? n = some c) ∧
    (∀ n after, c.advanceTo? n = some after →
      c.position.offset ≤ after.position.offset ∧ after.position.offset ≤ s.size) ∧
    ∀ p, c.HasPassed p → ∀ a b, s.IsBoundary a → s.IsBoundary b → p.offset ≤ a → a ≤ b →
      b ≤ s.size → ∃ pa pb, c.locate? p a = some pa ∧ c.locate? p b = some pb ∧
        c.locate? pa b = some pb ∧
        (∃ there, s.cursor.ComesTo b there ∧ there.position = pb) ∧
        ∀ (others : List Cursor.Move) d, others.foldlM Cursor.move? s.cursor = some d →
          d.position.offset = b → d.position = pb := by
  obtain ⟨m, rfl⟩ := Cursor.exists_advance_of_moves h
  refine ⟨?_, ?_, ?_, ?_⟩
  · intro n hn
    obtain ⟨steps, hjump, hreached, hshort⟩ := Cursor.exists_advanceTo?_eq m hn
    refine ⟨_, hjump, steps, ?_, hreached, ?_⟩
    · rw [Cursor.iterate_bump, Cursor.advance_advance]
    · intro fewer hfewer
      rw [Cursor.iterate_bump, Cursor.advance_advance]
      exact hshort fewer hfewer
  · intro n hn
    exact Cursor.advanceTo?_of_le hn
  · intro n after hafter
    obtain ⟨k, rfl⟩ := Cursor.exists_advance_of_advanceTo? hafter
    rw [Cursor.advance_advance]
    exact ⟨s.cursor.offset_advance_le (Nat.le_add_right m k), s.offset_advance_le_size _⟩
  · intro p hp a b ha hb hpa hab _
    obtain ⟨i, rfl⟩ : ∃ i, p = (s.cursor.advance i).position := hp.exists_advance rfl
    have hmark := (s.isTrue_advance i).markSize_le
    obtain ⟨j, -, rfl⟩ := exists_offset_advance ha (by omega)
    obtain ⟨k, hk, rfl⟩ := exists_offset_advance hb (by omega)
    refine ⟨(s.cursor.advance j).position, (s.cursor.advance k).position, locate?_advance rfl hpa,
      locate?_advance rfl (Nat.le_trans hpa hab), locate?_advance rfl hab,
      ⟨s.cursor.advance k, ⟨k, s.cursor.iterate_bump k, Nat.le_refl _, ?_⟩, rfl⟩, ?_⟩
    · intro fewer hfewer
      rw [Cursor.iterate_bump]
      exact s.cursor.offset_advance_lt hfewer (by omega)
    · intro others d hd hoffset
      obtain ⟨l, rfl⟩ := Cursor.exists_advance_of_moves hd
      rw [Cursor.advance_eq_of_offset_eq hoffset]

/-- Over a line end, a character of two bytes and another line end. -/
theorem Source.jumps_agree_with_steps_over_lines :
    ∃ c, [Cursor.Move.bump, .advanceTo 4].foldlM Cursor.move? (ofString "a\né\nb").cursor = some c ∧
      c.position = ⟨4, 2, 2⟩ ∧
      (∃ after, c.advanceTo? 9 = some after ∧ c.ComesTo 6 after) ∧
      c.advanceTo? 3 = some c ∧
      ∃ pa pb, c.locate? ⟨1, 1, 2⟩ 2 = some pa ∧ c.locate? ⟨1, 1, 2⟩ 5 = some pb ∧
        c.locate? pa 5 = some pb := by
  obtain ⟨hjump, hstay, -, hlocate⟩ := jumps_agree_with_steps
    (s := ofString "a\né\nb") (c := (ofString "a\né\nb").cursor.advance 3)
    (show [Cursor.Move.bump, .advanceTo 4].foldlM Cursor.move? _ = some _ by decide +kernel)
  obtain ⟨pa, pb, ha, hb, hab, -, -⟩ := hlocate ⟨1, 1, 2⟩ ⟨by decide +kernel, 1, by decide +kernel⟩
    2 5 (by decide +kernel) (by decide +kernel) (by decide) (by decide) (by decide +kernel)
  exact ⟨_, by decide +kernel, by decide +kernel, hjump 9 (by decide +kernel),
    hstay 3 (by decide +kernel), pa, pb, ha, hb, hab⟩

end Lexis
