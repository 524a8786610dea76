import Mathlib.Data.List.Infix
import Lexis.Proofs.Lexeme.Number

/-!
# How far a lexeme extends

Whatever a lexeme is read as, its characters are what the source begins with
(`Lexeme.chars_read_isPrefix`). Text that runs up to a mark ends at the first place where the mark
stands, so the mark cannot be found in it, nor across its end (`Enclosed.not_infix_of_closed`).
-/

namespace Lexis

/-! ## Quoted literals -/

theorem Escape.body_read_isPrefix (quote : Char) (source : List SourceChar) :
    (Escape.read quote source).body <+: source := by
  have hdigits (holds : Char → Bool) (width : Nat) (l : List SourceChar) :
      Escape.digits holds width l <+: l :=
    (List.takeWhile_prefix _).trans (List.take_prefix _ _)
  unfold Escape.read
  split
  · exact List.nil_prefix
  · next c rest =>
    split
    · exact ⟨rest, rfl⟩
    split
    · exact hdigits _ _ _
    split
    · exact (List.prefix_cons_inj c).2 (hdigits _ _ _)
    · exact List.nil_prefix

namespace Quoted

/-- The characters of items, with a closing quote where there is one. -/
def itemChars (quote : Char) (items : List QuotedItem × Bool) : List SourceChar :=
  items.1.flatMap QuotedItem.chars ++ if items.2 then [.valid quote] else []

theorem itemChars_cons (quote : Char) (item : QuotedItem) (items : List QuotedItem)
    (closed : Bool) :
    itemChars quote (item :: items, closed) = item.chars ++ itemChars quote (items, closed) := by
  simp [itemChars]

/-- The items after an opening quote are what the source goes on with. -/
theorem itemChars_readItems_isPrefix {quote : Char} (hquote : quote ≠ SourceChar.replacement)
    (source : List SourceChar) : itemChars quote (readItems quote source) <+: source := by
  fun_induction readItems quote source with
  | case1 => exact List.nil_prefix
  | case2 c rest hc =>
    rw [Lexeme.eq_valid_of_char_eq hc hquote]
    exact ⟨rest, rfl⟩
  | case3 => exact List.nil_prefix
  | case4 c rest _ _ hc e items closed hread ih =>
    have hslash : c = QuotedItem.backslash := Lexeme.eq_valid_of_char_eq hc (by decide)
    -- the items behind the escape are read from where its body ends
    obtain ⟨more, hmore⟩ := Escape.body_read_isPrefix quote rest
    rw [hread] at ih
    rw [itemChars_cons, hslash]
    show QuotedItem.backslash :: (e.body ++ _) <+: _
    rw [List.prefix_cons_inj, ← hmore]
    refine (List.prefix_append_right_inj _).2 ?_
    rwa [← hmore, List.drop_left] at ih
  | case5 c rest _ _ _ items closed hread ih =>
    rw [hread] at ih
    rw [itemChars_cons]
    exact (List.prefix_cons_inj c).2 ih

/-- A quoted literal is its opening quote and what the source goes on with. -/
theorem chars_read_isPrefix {quote : Char} (hquote : quote ≠ SourceChar.replacement)
    (rest : List SourceChar) : (read quote rest).chars <+: .valid quote :: rest := by
  have h := itemChars_readItems_isPrefix hquote rest
  exact (List.prefix_cons_inj _).2 h

end Quoted

/-! ## Text up to a mark -/

namespace Enclosed

variable {mark : List Char}

theorem take_of_startsWith {source : List SourceChar} (hmark : SourceChar.replacement ∉ mark)
    (h : startsWith mark source = true) : source.take mark.length = mark.map .valid := by
  rw [startsWith, beq_iff_eq] at h
  -- the mark has no replacement in it, so characters that show it are its own
  generalize source.take mark.length = chunk at h
  subst h
  induction chunk with
  | nil => rfl
  | cons c chunk ih =>
    rw [plainText_cons, List.mem_cons, not_or] at hmark
    rw [plainText_cons, List.map_cons, ← ih hmark.2,
      ← Lexeme.eq_valid_of_char_eq (c := c) rfl fun he => hmark.1 he.symm]

theorem startsWith_iff {source : List SourceChar} :
    startsWith mark source = true ↔ mark <+: plainText source := by
  rw [startsWith, beq_iff_eq, List.prefix_iff_eq_take, plainText, plainText, List.map_take]
  exact eq_comm

theorem not_infix_dropLast (hmark : mark ≠ []) : ¬ mark <:+: mark.dropLast := by
  intro h
  have hle := h.length_le
  have hpos := List.length_pos_iff.2 hmark
  rw [List.length_dropLast] at hle
  omega

/-- Where a mark is found, it stands behind that many characters, and neither within them nor
across their end. -/
theorem indexOf?_eq_some (hmark : mark ≠ []) {source : List SourceChar} {n : Nat}
    (h : indexOf? mark source = some n) :
    startsWith mark (source.drop n) = true ∧
      ¬ mark <:+: plainText (source.take n) ++ mark.dropLast := by
  induction source generalizing n with
  | nil => cases h
  | cons c rest ih =>
    unfold indexOf? at h
    split at h
    · next hstart =>
      cases h
      exact ⟨hstart, not_infix_dropLast hmark⟩
    · next hstart =>
      obtain ⟨m, hm, rfl⟩ := Option.map_eq_some_iff.1 h
      obtain ⟨hfound, hnot⟩ := ih hm
      refine ⟨hfound, ?_⟩
      rw [List.take_succ_cons, plainText_cons, List.cons_append, List.infix_cons_iff]
      rintro (hstarts | hinfix)
      · -- the mark would stand at the very start of the source
        apply hstart
        rw [startsWith_iff] at hfound ⊢
        have hrest : plainText (c :: rest) =
            c.char :: (plainText (rest.take m) ++ plainText (rest.drop m)) := by
          rw [← plainText_append, List.take_append_drop, plainText_cons]
        rw [hrest]
        refine hstarts.trans ((List.prefix_cons_inj _).2 ?_)
        exact (List.prefix_append_right_inj _).2 ((List.dropLast_prefix mark).trans hfound)
      · exact hnot hinfix

/-- Where no mark is found, there is none. -/
theorem not_infix_of_indexOf?_eq_none (hmark : mark ≠ []) {source : List SourceChar}
    (h : indexOf? mark source = none) : ¬ mark <:+: plainText source := by
  induction source with
  | nil =>
    intro hinfix
    exact hmark (List.infix_nil.1 hinfix)
  | cons c rest ih =>
    unfold indexOf? at h
    split at h
    · cases h
    · next hstart =>
      rw [Option.map_eq_none_iff] at h
      rw [plainText_cons, List.infix_cons_iff]
      rintro (hstarts | hinfix)
      · exact hstart (startsWith_iff.2 hstarts)
      · exact ih h hinfix

/-- What runs up to a mark is what the source begins with. -/
theorem charsThrough_read_isPrefix (hmark : mark ≠ []) (hvalid : SourceChar.replacement ∉ mark)
    (source : List SourceChar) : (read mark source).charsThrough mark <+: source := by
  unfold read
  split
  · next n hfound =>
    have htake := take_of_startsWith hvalid (indexOf?_eq_some hmark hfound).1
    show source.take n ++ mark.map .valid <+: source
    rw [← htake, ← List.take_add]
    exact List.take_prefix _ _
  · simp [charsThrough]

theorem body_read_isPrefix (mark : List Char) (source : List SourceChar) :
    (read mark source).body <+: source := by
  unfold read
  split
  · exact List.take_prefix _ _
  · exact List.prefix_refl _

/-- Before the mark that ends a text, no mark stands in the text or across its end. -/
theorem not_infix_of_closed (hmark : mark ≠ []) {source : List SourceChar}
    (h : (read mark source).closed = true) :
    ¬ mark <:+: plainText (read mark source).body ++ mark.dropLast := by
  unfold read at h ⊢
  split
  · next hfound => exact (indexOf?_eq_some hmark hfound).2
  · next hfound =>
    rw [hfound] at h
    cases h

/-- A text that no mark ends is the whole source, and there is no mark in it. -/
theorem not_infix_of_not_closed (hmark : mark ≠ []) {source : List SourceChar}
    (h : (read mark source).closed = false) :
    (read mark source).body = source ∧ ¬ mark <:+: plainText source := by
  unfold read at h ⊢
  split
  · next hfound =>
    rw [hfound] at h
    cases h
  · next hfound => exact ⟨rfl, not_infix_of_indexOf?_eq_none hmark hfound⟩

end Enclosed

/-! ## Lexemes -/

namespace Lexeme

theorem backtick_ne_nil : backtick ≠ [] := by decide

theorem lineEnd_ne_nil : lineEnd ≠ [] := by decide

theorem blockEnd_ne_nil : blockEnd ≠ [] := by decide

/-- A character that a form of lexeme was found to start with is the one that it is tested for. -/
theorem eq_valid_of_test {c : SourceChar} {d : Char} {other : Bool}
    (h : (decide (c.char = d) && other) = true) (hd : d ≠ SourceChar.replacement) :
    c = .valid d := by
  rw [Bool.and_eq_true, decide_eq_true_eq] at h
  exact eq_valid_of_char_eq h.1 hd

/-- The characters of a lexeme are what the source begins with. -/
theorem chars_read_isPrefix (mode : Mode) (c : SourceChar) (rest : List SourceChar) :
    (read mode c rest).chars <+: c :: rest := by
  have hsingle : (single c).chars <+: c :: rest := ⟨rest, rfl⟩
  unfold read
  split
  · split
    · exact (List.prefix_cons_inj c).2 (List.takeWhile_prefix _)
    · exact hsingle
  split
  · split
    · exact (Number.begins_read _ _).isPrefix
    · exact hsingle
  split
  · next h =>
    rw [eq_valid_of_test h (by decide)]
    exact Quoted.chars_read_isPrefix (by decide) rest
  split
  · next h =>
    rw [eq_valid_of_test h (by decide)]
    exact Quoted.chars_read_isPrefix (by decide) rest
  split
  · next h =>
    rw [eq_valid_of_test h (by decide)]
    exact (List.prefix_cons_inj _).2
      (Enclosed.charsThrough_read_isPrefix backtick_ne_nil (by decide) rest)
  split
  · exact (Number.begins_read _ _).isPrefix
  split
  · next h =>
    have hc := eq_valid_of_test h (by decide)
    split
    · rw [hc]
      exact (List.prefix_cons_inj _).2 (Enclosed.body_read_isPrefix lineEnd _)
    · have hend := Enclosed.charsThrough_read_isPrefix blockEnd_ne_nil (by decide)
      rw [hc]
      show SourceChar.valid '/' :: .valid '*' :: _ <+: _
      rw [List.prefix_cons_inj, List.prefix_cons_inj]
      exact hend _
    · exact hsingle
  · exact hsingle

/-- As many characters as a lexeme has show its text. -/
theorem plainText_take_read (mode : Mode) (c : SourceChar) (rest : List SourceChar) :
    plainText ((c :: rest).take (read mode c rest).chars.length) = (read mode c rest).text := by
  rw [← List.prefix_iff_eq_take.1 (chars_read_isPrefix mode c rest)]
  rfl

end Lexeme

end Lexis
