import Lexis.Proofs.Scanner.Whole

/-!
# Lexemes in front of a line end

A lexeme that nothing is wrong with is read again, of the same kind and with the same characters,
where its characters stand in front of a line end (`Lexeme.read_before_lineEnd`). Whatever it ended
before in the first place, a line end ends it as well, and the characters that are looked at behind
a point or a slash are not found there either.
-/

namespace Lexis

/-! ## Quoted literals -/

namespace SourceChar

/-- Characters without faults are those of a text. -/
theorem eq_map_valid {chars : List SourceChar} (h : ∀ d ∈ chars, d.fault? = none) :
    chars = (plainText chars).map .valid := by
  induction chars with
  | nil => rfl
  | cons c chars ih =>
    obtain ⟨hc, hchars⟩ := List.forall_mem_cons.1 h
    obtain ⟨d, rfl, -⟩ := (fault?_eq_none_iff c).1 hc
    rw [plainText_cons, List.map_cons, ← ih hchars]
    rfl

end SourceChar

section
variable {quote : Char}

/-- A whole escape is read again, whatever follows it. -/
theorem Escape.read_again (hoctal : Text.isOctalDigit quote = false)
    (hhex : Escape.hexWidth? quote = none) {source : List SourceChar}
    (hcomplete : (read quote source).complete = true)
    (hsound : ∀ d ∈ (read quote source).body, d.fault? = none) (more : List SourceChar) :
    read quote ((read quote source).body ++ more) = read quote source := by
  have hbody := SourceChar.eq_map_valid hsound
  have hagain := read_of_escapeText hoctal hhex (escapeText_of_complete hcomplete) more
  rw [← hbody] at hagain
  rw [hagain, ← hcomplete]

namespace Quoted

/-- In front of a quote, items that are whole are read again. -/
theorem readItems_again (hoctal : Text.isOctalDigit quote = false)
    (hhex : Escape.hexWidth? quote = none) {source : List SourceChar}
    (hclosed : (readItems quote source).2 = true)
    (hcomplete : ∀ e, .escape e ∈ (readItems quote source).1 → e.complete = true)
    (hsound : ∀ d ∈ (readItems quote source).1.flatMap QuotedItem.chars, d.fault? = none)
    (more : List SourceChar) :
    readItems quote ((readItems quote source).1.flatMap QuotedItem.chars ++ .valid quote :: more) =
      readItems quote source := by
  fun_induction readItems quote source with
  | case1 => cases hclosed
  | case2 =>
    rw [List.flatMap_nil, List.nil_append, readItems, SourceChar.char_valid, if_pos rfl]
  | case3 => cases hclosed
  | case4 c rest hquote hend hslash e items closed hread ih =>
    rw [List.flatMap_cons] at hsound
    obtain ⟨hescape, hitems⟩ := List.forall_mem_append.1 hsound
    rw [hread] at ih
    have hrest := ih hclosed (fun e he => hcomplete e (List.mem_cons_of_mem _ he)) hitems
    have hagain := Escape.read_again hoctal hhex (hcomplete e List.mem_cons_self)
      (fun d hd => hescape d (List.mem_cons_of_mem _ hd))
      (items.flatMap QuotedItem.chars ++ .valid quote :: more)
    have hback : QuotedItem.backslash.char = c.char := hslash.symm
    rw [List.flatMap_cons, List.append_assoc]
    show readItems quote (QuotedItem.backslash :: (e.body ++ _)) = _
    rw [readItems, hback, if_neg hquote, if_neg hend, if_pos hslash]
    dsimp only
    rw [hagain, List.drop_left, hrest]
  | case5 c rest hquote hend hslash items closed hread ih =>
    rw [List.flatMap_cons] at hsound
    have hitems := (List.forall_mem_append.1 hsound).2
    rw [hread] at ih
    have hrest := ih hclosed (fun e he => hcomplete e (List.mem_cons_of_mem _ he)) hitems
    rw [List.flatMap_cons, List.append_assoc]
    show readItems quote (c :: (items.flatMap QuotedItem.chars ++ .valid quote :: more)) = _
    rw [readItems, if_neg hquote, if_neg hend, if_neg hslash]
    dsimp only
    rw [hrest]

/-- A whole literal is read again, whatever follows it. -/
theorem read_again (hoctal : Text.isOctalDigit quote = false)
    (hhex : Escape.hexWidth? quote = none) {rest : List SourceChar}
    (hwhole : (read quote rest).IsWhole) (hsound : ∀ d ∈ (read quote rest).chars, d.fault? = none)
    (more : List SourceChar) :
    read quote ((read quote rest).chars.tail ++ more) = read quote rest := by
  have hclosed := hwhole.closed
  have htail : (read quote rest).chars.tail ++ more =
      (readItems quote rest).1.flatMap QuotedItem.chars ++ .valid quote :: more := by
    rw [chars, hclosed, if_pos rfl, List.cons_append, List.tail_cons, List.append_assoc]
    rfl
  have hitems : ∀ d ∈ (readItems quote rest).1.flatMap QuotedItem.chars, d.fault? = none := by
    intro d hd
    refine hsound d (List.mem_append_left _ (List.mem_cons_of_mem _ hd))
  rw [htail]
  show Quoted.mk quote _ _ = Quoted.mk quote _ _
  rw [readItems_again hoctal hhex hclosed hwhole.complete hitems]

end Quoted

end

/-! ## Text up to a mark -/

namespace Enclosed

/-- No text up to a line end, or up to the end of the input, holds a line end. -/
theorem not_infix_lineEnd (source : List SourceChar) :
    ¬ Lexeme.lineEnd <:+: plainText (read Lexeme.lineEnd source).body ++ Lexeme.lineEnd.dropLast := by
  cases hclosed : (read Lexeme.lineEnd source).closed with
  | true => exact not_infix_of_closed Lexeme.lineEnd_ne_nil hclosed
  | false =>
    obtain ⟨hall, hnot⟩ := not_infix_of_not_closed Lexeme.lineEnd_ne_nil hclosed
    rw [hall]
    simpa [Lexeme.lineEnd] using hnot

end Enclosed

/-! ## Numbers -/

namespace Number

/-- A number without faults is read again in front of a line end. -/
theorem read_again {floats : Bool} {source : List SourceChar}
    (hfaults : (read floats source).faults = []) (more : List SourceChar) :
    read floats ((read floats source).text.map .valid ++ .valid '\n' :: more) =
      read floats source := by
  have hcomposed := composed_read floats source
  have hfloats : floats = true ∨ (read floats source).kind = .integer := by
    cases floats with
    | true => exact .inl rfl
    | false => exact .inr (kind_read_false source)
  obtain ⟨rest, htext, hsame⟩ := read_text_append hcomposed ((faults_eq_nil_iff hcomposed).1 hfaults)
    hfloats (.valid '\n' :: more)
  refine hsame ?_
  have hbegins := begins_read floats
    ((read floats source).text.map .valid ++ .valid '\n' :: more)
  rw [htext] at hbegins
  cases rest with
  | nil => rfl
  | cons c rest =>
    -- the character after the text would be the line end, which no number holds
    have hprefix := hbegins.isPrefix
    rw [List.map_append, List.prefix_append_right_inj, List.map_cons, List.cons_prefix_cons] at hprefix
    have hplain := hbegins.isPlain c (List.mem_append_right _ List.mem_cons_self)
    rw [SourceChar.valid.inj hprefix.1] at hplain
    exact absurd rfl hplain.2

/-- A number that starts with a point and a digit has both in its text. -/
theorem exists_text_eq_point (d : SourceChar) (hdigit : d.char.isDigit = true)
    (rest : List SourceChar) :
    ∃ more, (read true (.valid '.' :: d :: rest)).text = '.' :: d.char :: more := by
  have hpoint : Radix.decimal.accepts '.' = false := by decide
  have haccepts : Radix.decimal.accepts d.char = true := by
    rw [Radix.accepts, Radix.isDigit, if_neg (by decide), hdigit, Bool.true_or]
  have hwhole := Radix.run_cons_of_not_accepts (c := .valid '.') hpoint (d :: rest)
  have hfraction : Radix.decimal.run (d :: rest) = d.char :: Radix.decimal.run rest := by
    rw [Radix.run, List.takeWhile_cons, if_pos haccepts]
    rfl
  simp [read, Radix.ofLead, hwhole, text, mantissa, fractionText, readFraction?, hfraction]

end Number

/-! ## Lexemes -/

namespace Lexeme

variable {mode : Mode} {c : SourceChar} {rest : List SourceChar}

/-- A character that stands for itself does so in front of a line end, which is no digit, no slash
and no asterisk. -/
theorem read_single_before_lineEnd (h : read mode c rest = .single c) (more : List SourceChar) :
    read mode c (.valid '\n' :: more) = .single c := by
  refine read_single_of_head h (fun hdigit => by cases hdigit) ?_
  rintro d ⟨⟩ (hd | hd)
  · cases hd
  · cases hd

/-- A lexeme starts with the character that it is read from. -/
theorem chars_read_eq_cons (mode : Mode) (c : SourceChar) (rest : List SourceChar) :
    (read mode c rest).chars = c :: (read mode c rest).chars.tail := by
  obtain ⟨first, tail, hchars⟩ := List.exists_cons_of_ne_nil (chars_read_ne_nil mode c rest)
  have hprefix := chars_read_isPrefix mode c rest
  rw [hchars, List.cons_prefix_cons] at hprefix
  rw [hchars, hprefix.1, List.tail_cons]

/-- A number that nothing is wrong with is read again in front of a line end. -/
theorem read_number_before_lineEnd {n : Number} (hread : read mode c rest = .number n)
    (hfaults : n.faults = []) (more : List SourceChar) :
    read mode c ((number n).chars.tail ++ .valid '\n' :: more) = .number n := by
  have hchars := chars_read_eq_cons mode c rest
  rw [hread] at hchars
  have hsource : c :: ((number n).chars.tail ++ .valid '\n' :: more) =
      n.text.map .valid ++ .valid '\n' :: more := by
    rw [← List.cons_append, ← hchars]
    rfl
  have hform := form_read mode c rest
  generalize read mode c rest = l at hread hform
  cases hform with
  | number hdigit hmode =>
    cases hread
    rw [read_of_isDigit hdigit hmode, hsource, Number.read_again hfaults]
  | point hc hdigit hmode =>
    cases hread
    -- the digit behind the point is part of the number
    have hnext : ((number (.read true (c :: rest))).chars.tail ++
        .valid '\n' :: more).head?.any (·.char.isDigit) = true := by
      cases rest with
      | nil => cases hdigit
      | cons d rest =>
        have hd : d.char.isDigit = true := hdigit
        obtain ⟨tail, htext⟩ := Number.exists_text_eq_point d hd rest
        rw [hc, chars, htext]
        exact hd
    rw [hc] at hsource hfaults hnext ⊢
    rw [read_point, hmode, hnext, Bool.and_true, if_pos rfl, hsource, Number.read_again hfaults]
  | quoted quoting => cases quoting <;> cases hread
  | _ => cases hread

/-- A line end is no part of an identifier, so an identifier is read again in front of one. -/
theorem read_identifier_before_lineEnd (hstart : isIdentifierStart c.char = true)
    (hmode : mode.has .identifiers = true) (more : List SourceChar) :
    read mode c (rest.takeWhile (fun d => isIdentifierPart d.char) ++ .valid '\n' :: more) =
      .identifier (c :: rest.takeWhile fun d => isIdentifierPart d.char) := by
  have hend : isIdentifierPart '\n' = false := by decide +kernel
  rw [read_of_isIdentifierStart hstart hmode,
    List.takeWhile_append_of_pos fun d hd => by simpa using List.mem_takeWhile_imp hd,
    List.takeWhile_cons, SourceChar.char_valid, hend, if_neg Bool.false_ne_true, List.append_nil]

/-- A line comment ends at the line end that it stands in front of, whatever it ended at before. -/
theorem read_lineComment_before_lineEnd (hmode : mode.has .comments = true)
    (more : List SourceChar) :
    read mode (.valid '/')
        ((Enclosed.read lineEnd (.valid '/' :: rest)).body ++ .valid '\n' :: more) =
      .lineComment ⟨(Enclosed.read lineEnd (.valid '/' :: rest)).body, true⟩ := by
  -- the second slash is the first character of the text up to the line end
  have hbody : (Enclosed.read lineEnd (.valid '/' :: rest)).body =
      .valid '/' :: (Enclosed.read lineEnd rest).body := by
    rw [Enclosed.read_cons rfl]
  rw [← Enclosed.read_of_not_infix lineEnd_ne_nil
    (Enclosed.not_infix_lineEnd (.valid '/' :: rest)) more, read_slash, if_pos hmode, hbody]
  rfl

/-- A lexeme that nothing is wrong with, and none of whose characters is faulty, is read again where
its characters stand in front of a line end. -/
theorem read_before_lineEnd (hwhole : (read mode c rest).IsWhole)
    (hsound : ∀ d ∈ (read mode c rest).chars, d.fault? = none) (more : List SourceChar) :
    let again := read mode c ((read mode c rest).chars.tail ++ .valid '\n' :: more)
    again.IsWhole ∧ again.kind = (read mode c rest).kind ∧
      again.chars = (read mode c rest).chars := by
  -- all but the line comments are read as the very same lexeme
  have hsame (hagain : read mode c ((read mode c rest).chars.tail ++ .valid '\n' :: more) =
      read mode c rest) :
      let again := read mode c ((read mode c rest).chars.tail ++ .valid '\n' :: more)
      again.IsWhole ∧ again.kind = (read mode c rest).kind ∧
        again.chars = (read mode c rest).chars := by
    dsimp only
    rw [hagain]
    exact ⟨hwhole, rfl, rfl⟩
  have hform := form_read mode c rest
  generalize hread : read mode c rest = l at hwhole hsound hform hsame ⊢
  cases hform with
  | identifier hstart hmode =>
    exact hsame (read_identifier_before_lineEnd hstart hmode more)
  | number hdigit hmode =>
    cases hwhole with
    | number hfaults => exact hsame (read_number_before_lineEnd hread hfaults more)
  | point hc hdigit hmode =>
    cases hwhole with
    | number hfaults => exact hsame (read_number_before_lineEnd hread hfaults more)
  | quoted quoting hc hmode =>
    refine hsame ?_
    rw [hc, read_mark quoting hmode]
    cases quoting with
    | double =>
      cases hwhole with
      | string hq => exact congrArg string (Quoted.read_again (by decide) (by decide) hq hsound _)
    | single =>
      cases hwhole with
      | char hq hone => exact congrArg char (Quoted.read_again (by decide) (by decide) hq hsound _)
    | backticks =>
      cases hwhole with
      | rawString hclosed =>
        exact congrArg rawString (Enclosed.read_again backtick_ne_nil hclosed _)
  | @lineComment rest' hc hrest hmode =>
    have hline := @read_lineComment_before_lineEnd mode rest' hmode more
    rw [← hrest, ← hc] at hline
    dsimp only [chars, List.tail_cons]
    rw [hline]
    exact ⟨.lineComment _, rfl, rfl⟩
  | blockComment hc hrest hmode =>
    cases hwhole with
    | blockComment hclosed =>
      refine hsame ?_
      rw [hc, read_slash, if_pos hmode, chars, List.tail_cons, List.cons_append]
      show blockComment _ = _
      rw [Enclosed.read_again blockEnd_ne_nil hclosed]
  | single => exact hsame (read_single_before_lineEnd hread more)

end Lexeme

end Lexis
