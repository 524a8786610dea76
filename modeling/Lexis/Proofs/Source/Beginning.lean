import Lexis.Lexeme.Basic
import Lexis.Proofs.Source.Movement

/-!
# What a source begins with

Reading a lexeme means finding out how much of a source belongs to it. `Begins text source` says
that the plain characters of `text` stand at the start of `source`; texts that follow one another
are put together with `Begins.append`. A plain character cannot be a replacement
(`SourceChar.eq_valid_of_isPlain`), so whatever is read by its plain characters was encoded well.
-/

namespace Lexis

/-! ## Plain characters -/

theorem isPlain_of_lt {c : Char} (h : c.toNat < 128) (hn : c ≠ '\n') : IsPlain c := by
  refine ⟨?_, hn⟩
  rw [Char.utf8Size_eq_one_iff]
  show c.val.toNat ≤ 127
  have : c.toNat = c.val.toNat := rfl
  omega

theorem isPlain_of_isHexDigit {c : Char} (h : Text.isHexDigit c = true) : IsPlain c := by
  simp only [Text.isHexDigit, Char.isDigit, Bool.or_eq_true, Bool.and_eq_true, decide_eq_true_eq,
    Char.le_def, UInt32.le_iff_toNat_le, ge_iff_le] at h
  have hval : 48 ≤ c.toNat ∧ c.toNat < 128 := by
    show 48 ≤ c.val.toNat ∧ c.val.toNat < 128
    rcases h with (h | h) | h
    · exact ⟨h.1, Nat.lt_of_le_of_lt h.2 (by decide)⟩
    · exact ⟨Nat.le_trans (by decide) h.1, Nat.lt_of_le_of_lt h.2 (by decide)⟩
    · exact ⟨Nat.le_trans (by decide) h.1, Nat.lt_of_le_of_lt h.2 (by decide)⟩
  refine isPlain_of_lt hval.2 ?_
  intro he
  subst he
  exact absurd hval.1 (by decide)

theorem isPlain_of_isDigit {c : Char} (h : c.isDigit = true) : IsPlain c := by
  apply isPlain_of_isHexDigit
  simp [Text.isHexDigit, h]

/-- A replacement character takes three bytes, so a plain character is none. -/
theorem SourceChar.eq_valid_of_isPlain {c : SourceChar} (h : IsPlain c.char) :
    c = .valid c.char := by
  refine Lexeme.eq_valid_of_char_eq rfl ?_
  intro he
  rw [he] at h
  exact absurd h.1 (by decide)

/-! ## Texts at the start of a source -/

/-- `text` stands at the start of `source`, and all its characters are plain. -/
structure Begins (text : List Char) (source : List SourceChar) : Prop where
  isPrefix : text.map .valid <+: source
  isPlain : ∀ c ∈ text, IsPlain c

namespace Begins

variable {a b text : List Char} {source more : List SourceChar}

theorem nil (source : List SourceChar) : Begins [] source where
  isPrefix := List.nil_prefix
  isPlain := fun _ hc => by cases hc

theorem cons {c : Char} (hc : IsPlain c) (h : Begins text source) :
    Begins (c :: text) (.valid c :: source) where
  isPrefix := (List.prefix_cons_inj _).2 h.isPrefix
  isPlain := List.forall_mem_cons.2 ⟨hc, h.isPlain⟩

/-- What stands at the start of the rest goes on what was read before it. -/
theorem append (ha : Begins a source) (hb : Begins b (source.drop a.length)) :
    Begins (a ++ b) source where
  isPrefix := by
    obtain ⟨rest, rfl⟩ := ha.isPrefix
    have hlength : (a.map SourceChar.valid).length = a.length := List.length_map _
    have hprefix := hb.isPrefix
    rw [← hlength, List.drop_left] at hprefix
    rw [List.map_append]
    exact (List.prefix_append_right_inj _).2 hprefix
  isPlain := by
    intro c hc
    rcases List.mem_append.1 hc with hc | hc
    · exact ha.isPlain c hc
    · exact hb.isPlain c hc

theorem mono (h : Begins text source) (hmore : source <+: more) : Begins text more where
  isPrefix := h.isPrefix.trans hmore
  isPlain := h.isPlain

/-- The characters at the start of the source show the text. -/
theorem plainText_take (h : Begins text source) :
    plainText (source.take text.length) = text := by
  have htake := (List.prefix_iff_eq_take.1 h.isPrefix).symm
  rw [List.length_map] at htake
  rw [htake, plainText_map_valid]

/-- Characters that are plain are read as they stand. -/
theorem takeWhile (holds : Char → Bool) (h : ∀ c, holds c = true → IsPlain c)
    (source : List SourceChar) :
    Begins (plainText (source.takeWhile fun c => holds c.char)) source := by
  have hplain : ∀ c ∈ source.takeWhile (fun c => holds c.char), IsPlain c.char := by
    intro c hc
    exact h _ (by simpa using List.mem_takeWhile_imp hc)
  -- a run of plain characters has no replacement in it, so its text encodes it again
  have hvalid : ∀ l : List SourceChar, (∀ c ∈ l, IsPlain c.char) →
      (plainText l).map SourceChar.valid = l := by
    intro l hl
    induction l with
    | nil => rfl
    | cons c l ih =>
      rw [plainText_cons, List.map_cons, ih fun d hd => hl d (List.mem_cons_of_mem _ hd),
        ← SourceChar.eq_valid_of_isPlain (hl c List.mem_cons_self)]
  constructor
  · rw [hvalid _ hplain]
    exact List.takeWhile_prefix _
  · intro c hc
    obtain ⟨d, hd, rfl⟩ := List.mem_map.1 hc
    exact hplain d hd

end Begins

end Lexis
