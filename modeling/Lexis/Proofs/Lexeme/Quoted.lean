import Lexis.Proofs.Lexeme.Reports

/-!
# What is written between quotes

`BodyText quote text` says how the body of a literal between quotes of a given kind has to be
written: every backslash is followed by a whole escape (`EscapeText`), and no quote and no line end
stands by itself. A literal whose reading gives no reason for complaint has such a body
(`Quoted.bodyText_of_reports`), and in front of a closing quote every such body is read as it is
(`Quoted.isWhole_read`).
-/

namespace Lexis

/-! ## Escapes -/

/-- What follows the backslash of a whole escape in a literal between quotes of the given kind. -/
inductive EscapeText (quote : Char) : List Char → Prop
  | quote : EscapeText quote [quote]
  /-- A letter that stands for a control character, or the backslash. -/
  | simple {c : Char} (hc : Escape.isSimple c = true) : EscapeText quote [c]
  | octal {digits : List Char} (hlength : digits.length = 3)
      (hdigits : ∀ d ∈ digits, Text.isOctalDigit d = true) : EscapeText quote digits
  /-- A letter, and as many hexadecimal digits as it asks for. -/
  | hexadecimal {letter : Char} {width : Nat} {digits : List Char}
      (hwidth : Escape.hexWidth? letter = some width) (hlength : digits.length = width)
      (hdigits : ∀ d ∈ digits, Text.isHexDigit d = true) : EscapeText quote (letter :: digits)

namespace Escape

theorem isSimple_iff {c : Char} :
    isSimple c = true ↔ c ∈ ['a', 'b', 'f', 'n', 'r', 't', 'v', '\x5c'] := by
  rw [isSimple, List.contains_iff_mem]

theorem hexWidth?_eq_some_iff {c : Char} {width : Nat} :
    hexWidth? c = some width ↔
      c = 'x' ∧ width = 2 ∨ c = 'u' ∧ width = 4 ∨ c = 'U' ∧ width = 8 := by
  unfold hexWidth?
  split
  · next h =>
    subst h
    simp [eq_comm]
  split
  · next h =>
    subst h
    simp [eq_comm]
  split
  · next h =>
    subst h
    simp [eq_comm]
  · next hx hu hU => simp [hx, hu, hU]

/-- No letter stands for a control character and begins an octal or a hexadecimal escape too. -/
theorem not_digit_of_isSimple {c : Char} (h : isSimple c = true) :
    Text.isOctalDigit c = false ∧ hexWidth? c = none := by
  have hmem := isSimple_iff.1 h
  simp only [List.mem_cons, List.not_mem_nil, or_false] at hmem
  rcases hmem with rfl | rfl | rfl | rfl | rfl | rfl | rfl | rfl <;> decide

theorem hexWidth?_of_isOctalDigit {c : Char} (h : Text.isOctalDigit c = true) :
    hexWidth? c = none := by
  cases hwidth : hexWidth? c with
  | none => rfl
  | some width =>
    rcases hexWidth?_eq_some_iff.1 hwidth with ⟨rfl, -⟩ | ⟨rfl, -⟩ | ⟨rfl, -⟩
    · exact absurd h (by decide)
    · exact absurd h (by decide)
    · exact absurd h (by decide)

theorem holds_of_mem_digits {isDigit : Char → Bool} {width : Nat} {source : List SourceChar}
    {d : Char} (h : d ∈ plainText (digits isDigit width source)) : isDigit d = true := by
  obtain ⟨c, hc, rfl⟩ := List.mem_map.1 h
  simpa using List.mem_takeWhile_imp hc

/-- Exactly as many digits as are asked for are taken where that many stand. -/
theorem digits_map_valid {isDigit : Char → Bool} {text : List Char}
    (h : ∀ d ∈ text, isDigit d = true) (rest : List SourceChar) :
    digits isDigit text.length (text.map .valid ++ rest) = text.map .valid := by
  have htake : (text.map SourceChar.valid ++ rest).take text.length = text.map .valid := by
    rw [List.take_append_of_le_length (by simp), List.take_of_length_le (by simp)]
  rw [digits, htake, List.takeWhile_eq_self_iff]
  intro c hc
  obtain ⟨d, hd, rfl⟩ := List.mem_map.1 hc
  exact h d hd

/-- A whole escape is written the way that escapes are. -/
theorem escapeText_of_complete {quote : Char} {source : List SourceChar}
    (h : (read quote source).complete = true) :
    EscapeText quote (plainText (read quote source).body) := by
  unfold read at h ⊢
  split at h
  · cases h
  · next c rest =>
    dsimp only at h ⊢
    split at h
    · next hc =>
      rw [if_pos hc]
      rw [Bool.or_eq_true, decide_eq_true_eq] at hc
      rcases hc with hc | hc
      · show EscapeText quote [c.char]
        rw [hc]
        exact .quote
      · exact .simple hc
    · next hc =>
      rw [if_neg hc]
      split at h
      · next hoctal =>
        rw [if_pos hoctal]
        refine .octal ?_ fun d hd => holds_of_mem_digits hd
        rw [length_plainText]
        exact of_decide_eq_true h
      · next hoctal =>
        rw [if_neg hoctal]
        split at h
        · next width hwidth =>
          have hlength := of_decide_eq_true h
          rw [← length_plainText] at hlength
          exact .hexadecimal hwidth hlength fun d hd => holds_of_mem_digits hd
        · cases h

/-- Behind a backslash, an octal digit begins an octal escape. -/
theorem read_of_isOctalDigit {quote : Char} (hoctal : Text.isOctalDigit quote = false)
    {c : SourceChar} (hc : Text.isOctalDigit c.char = true) (rest : List SourceChar) :
    read quote (c :: rest) = ⟨digits Text.isOctalDigit 3 (c :: rest),
      (digits Text.isOctalDigit 3 (c :: rest)).length = 3⟩ := by
  have hquote : c.char ≠ quote := by
    rintro rfl
    rw [hc] at hoctal
    cases hoctal
  have hsimple : isSimple c.char = false := by
    by_contra hne
    rw [(not_digit_of_isSimple (Bool.not_eq_false _ ▸ hne)).1] at hc
    cases hc
  rw [read, if_neg (by simp [hquote, hsimple]), if_pos hc]

/-- Behind a backslash, some letters begin a hexadecimal escape. -/
theorem read_of_hexWidth? {quote : Char} (hhex : hexWidth? quote = none) {c : SourceChar}
    {width : Nat} (hwidth : hexWidth? c.char = some width) (rest : List SourceChar) :
    read quote (c :: rest) = ⟨c :: digits Text.isHexDigit width rest,
      (digits Text.isHexDigit width rest).length = width⟩ := by
  have hquote : c.char ≠ quote := by
    rintro rfl
    rw [hwidth] at hhex
    cases hhex
  have hsimple : isSimple c.char = false := by
    by_contra hne
    rw [(not_digit_of_isSimple (Bool.not_eq_false _ ▸ hne)).2] at hwidth
    cases hwidth
  have hdigit : Text.isOctalDigit c.char = false := by
    by_contra hne
    rw [hexWidth?_of_isOctalDigit (Bool.not_eq_false _ ▸ hne)] at hwidth
    cases hwidth
  rw [read, if_neg (by simp [hquote, hsimple]), if_neg (by simp [hdigit])]
  simp only [hwidth]

/-- An escape is read as it is written, whatever follows it. The quote must not be a character that
begins an escape anyway. -/
theorem read_of_escapeText {quote : Char} {text : List Char}
    (hoctal : Text.isOctalDigit quote = false) (hhex : hexWidth? quote = none)
    (h : EscapeText quote text) (rest : List SourceChar) :
    read quote (text.map .valid ++ rest) = ⟨text.map .valid, true⟩ := by
  cases h with
  | quote => simp [read, SourceChar.char]
  | simple hc => simp [read, SourceChar.char, hc]
  | octal hlength hdigits =>
    have htaken := digits_map_valid hdigits rest
    cases text with
    | nil => cases hlength
    | cons d digits =>
      have hd : Text.isOctalDigit (SourceChar.valid d).char = true := hdigits d List.mem_cons_self
      rw [hlength, List.map_cons, List.cons_append] at htaken
      rw [List.map_cons, List.cons_append, read_of_isOctalDigit hoctal hd, htaken]
      simpa using hlength
  | @hexadecimal letter width digits hwidth hlength hdigits =>
    have htaken := digits_map_valid hdigits rest
    have hletter : hexWidth? (SourceChar.valid letter).char = some width := hwidth
    rw [hlength] at htaken
    rw [List.map_cons, List.cons_append, read_of_hexWidth? hhex hletter, htaken]
    simpa using hlength

end Escape

/-! ## Bodies -/

/-- The body of a literal between quotes of the given kind. -/
inductive BodyText (quote : Char) : List Char → Prop
  | nil : BodyText quote []
  | plain {c : Char} {rest : List Char} (hquote : c ≠ quote) (hend : c ≠ '\n')
      (hslash : c ≠ '\x5c') (hrest : BodyText quote rest) : BodyText quote (c :: rest)
  | escape {text rest : List Char} (htext : EscapeText quote text)
      (hrest : BodyText quote rest) : BodyText quote ('\x5c' :: text ++ rest)

theorem EscapeText.newline_notMem {quote : Char} {text : List Char} (hquote : quote ≠ '\n')
    (h : EscapeText quote text) : '\n' ∉ text := by
  intro hmem
  cases h with
  | quote => exact hquote (List.mem_singleton.1 hmem).symm
  | simple hc =>
    rw [← List.mem_singleton.1 hmem] at hc
    exact absurd hc (by decide)
  | octal _ hdigits => exact absurd (hdigits _ hmem) (by decide)
  | hexadecimal hwidth _ hdigits =>
    rcases List.mem_cons.1 hmem with rfl | hmem
    · exact absurd hwidth (by simp [Escape.hexWidth?])
    · exact absurd (hdigits _ hmem) (by decide)

theorem BodyText.newline_notMem {quote : Char} {text : List Char} (hquote : quote ≠ '\n')
    (h : BodyText quote text) : '\n' ∉ text := by
  induction h with
  | nil => simp
  | plain _ hend _ _ ih => simp [ih, Ne.symm hend]
  | escape htext _ ih => simp [ih, htext.newline_notMem hquote]

/-- The literal has its closing quote, and every escape in it has all its digits. -/
structure Quoted.IsWhole (q : Quoted) : Prop where
  closed : q.closed = true
  complete : ∀ e, .escape e ∈ q.items → e.complete = true

namespace Quoted

variable {quote : Char}

/-- Items whose escapes are all whole make up a body. -/
theorem bodyText_of_readItems (source : List SourceChar)
    (h : ∀ e, .escape e ∈ (readItems quote source).1 → e.complete = true) :
    BodyText quote (plainText ((readItems quote source).1.flatMap QuotedItem.chars)) := by
  fun_induction readItems quote source with
  | case1 => exact .nil
  | case2 => exact .nil
  | case3 => exact .nil
  | case4 c rest _ _ hc e items closed hread ih =>
    rw [hread] at ih
    have hrest := ih fun e he => h e (List.mem_cons_of_mem _ he)
    have htext := Escape.escapeText_of_complete (h e List.mem_cons_self)
    rw [List.flatMap_cons, plainText_append]
    exact .escape htext hrest
  | case5 c rest hquote hend hslash items closed hread ih =>
    rw [hread] at ih
    have hrest := ih fun e he => h e (List.mem_cons_of_mem _ he)
    rw [List.flatMap_cons, plainText_append]
    exact .plain hquote hend hslash hrest

/-- A body in front of a closing quote is read to its end, and all its escapes are whole. -/
theorem exists_readItems {text : List Char} (hoctal : Text.isOctalDigit quote = false)
    (hhex : Escape.hexWidth? quote = none) (hslash : quote ≠ '\x5c') (h : BodyText quote text)
    (rest : List SourceChar) :
    ∃ items, readItems quote (text.map .valid ++ .valid quote :: rest) = (items, true) ∧
      items.flatMap QuotedItem.chars = text.map .valid ∧
      ∀ e, .escape e ∈ items → e.complete = true := by
  induction h with
  | nil =>
    refine ⟨[], ?_, rfl, by simp⟩
    rw [List.map_nil, List.nil_append, readItems, SourceChar.char_valid, if_pos rfl]
  | @plain c text hquote hend hslash' _ ih =>
    obtain ⟨items, hread, hchars, hwhole⟩ := ih
    refine ⟨.plain (.valid c) :: items, ?_, ?_, ?_⟩
    · rw [List.map_cons, List.cons_append, readItems, SourceChar.char_valid, if_neg hquote,
        if_neg hend, if_neg hslash', hread]
    · rw [List.flatMap_cons, hchars]
      rfl
    · intro e he
      rcases List.mem_cons.1 he with he | he
      · cases he
      · exact hwhole e he
  | @escape text more htext _ ih =>
    obtain ⟨items, hread, hchars, hwhole⟩ := ih
    have hescape := Escape.read_of_escapeText hoctal hhex htext
      (more.map .valid ++ .valid quote :: rest)
    refine ⟨.escape ⟨text.map .valid, true⟩ :: items, ?_, ?_, ?_⟩
    · rw [List.map_append, List.map_cons, List.cons_append, List.cons_append, List.append_assoc,
        readItems, SourceChar.char_valid, if_neg hslash.symm, if_neg (by decide), if_pos rfl]
      dsimp only
      rw [hescape, List.drop_left, hread]
    · rw [List.flatMap_cons, hchars, List.map_append]
      rfl
    · intro e he
      rcases List.mem_cons.1 he with he | he
      · cases he
        rfl
      · exact hwhole e he

/-- Between two quotes, a body is read as a whole literal, whatever follows it. -/
theorem isWhole_read {text : List Char} (hoctal : Text.isOctalDigit quote = false)
    (hhex : Escape.hexWidth? quote = none) (hslash : quote ≠ '\x5c') (h : BodyText quote text)
    (rest : List SourceChar) :
    let q := read quote (text.map .valid ++ .valid quote :: rest)
    q.IsWhole ∧ q.chars = (quote :: text ++ [quote]).map .valid := by
  obtain ⟨items, hitems, hbody, hcomplete⟩ := exists_readItems hoctal hhex hslash h rest
  intro q
  have hq : q = ⟨quote, items, true⟩ := by
    show Quoted.mk _ _ _ = _
    rw [hitems]
  rw [hq]
  refine ⟨⟨rfl, hcomplete⟩, ?_⟩
  rw [chars, body, hbody]
  simp

end Quoted

/-! ## Reading without complaint -/

namespace Reading

/-- A literal without faults is read character by character. -/
theorem consumeQuoted_eq_bumps {q : Quoted} (h : q.IsWhole) (r : Reading) :
    r.consumeQuoted q = r.bumps q.chars.length := by
  have hitem (r : Reading) {item : QuotedItem} (hmem : item ∈ q.items) :
      r.consumeItem item = r.bumps item.chars.length := by
    cases item with
    | plain c => rfl
    | escape e =>
      simp only [consumeItem, h.complete e hmem, if_true]
      rfl
  have hitems : ∀ (items : List QuotedItem) (r : Reading), (∀ item ∈ items, item ∈ q.items) →
      items.foldl consumeItem r = r.bumps (items.flatMap QuotedItem.chars).length := by
    intro items
    induction items with
    | nil => exact fun r _ => rfl
    | cons item items ih =>
      intro r hmem
      rw [List.foldl_cons, hitem r (hmem item List.mem_cons_self),
        ih _ fun other hother => hmem other (List.mem_cons_of_mem _ hother), bumps_bumps,
        List.flatMap_cons, List.length_append]
  have hlength : q.chars.length = 1 + (q.body.length + 1) := by
    rw [Quoted.chars, h.closed, List.length_append, List.length_cons]
    simp
    omega
  rw [consumeQuoted, h.closed, if_pos rfl, hitems q.items r.bump fun _ hitem => hitem, hlength,
    ← bumps_bumps, ← bumps_bumps]
  rfl

/-- Where reading items reports nothing but literals that do not hold one character, all escapes are
whole, and nothing else was reported before. -/
theorem whole_of_foldl_consumeItem (items : List QuotedItem) {r : Reading}
    (h : ∀ report ∈ (items.foldl consumeItem r).reports.toList,
      report.fault = .illegalCharLiteral) :
    (∀ report ∈ r.reports.toList, report.fault = .illegalCharLiteral) ∧
      ∀ e, .escape e ∈ items → e.complete = true := by
  induction items generalizing r with
  | nil => exact ⟨h, by simp⟩
  | cons item items ih =>
    obtain ⟨hfirst, hrest⟩ := ih h
    have hreports := (Appends.consumeItem item).reports_eq r
    refine ⟨fun report hreport => hfirst report ?_, ?_⟩
    · rw [hreports]
      exact List.mem_append_left _ hreport
    · intro e he
      rcases List.mem_cons.1 he with rfl | he
      · by_contra hcomplete
        -- an escape that breaks off would have been reported as such
        have hbroken := hfirst ⟨(r.bump.bumps e.body.length).position, .invalidEscape⟩ (by
          simp [consumeItem, hcomplete, report, reportAt])
        cases hbroken
      · exact hrest e he

end Reading

namespace Quoted

/-- A literal whose reading reports nothing but that it does not hold one character is whole and has
a body that is written as it has to be. -/
theorem bodyText_of_reports {quote : Char} {rest : List SourceChar} {r : Reading}
    (h : ∀ report ∈ (r.consumeQuoted (read quote rest)).reports.toList,
      report.fault = .illegalCharLiteral) :
    (read quote rest).IsWhole ∧ BodyText quote (plainText (read quote rest).body) := by
  have hclosed : (read quote rest).closed = true := by
    by_contra hopen
    have hreport := h ⟨((read quote rest).items.foldl Reading.consumeItem r.bump).position,
      .literalNotTerminated⟩ (by
        simp [Reading.consumeQuoted, hopen, Reading.report, Reading.reportAt])
    cases hreport
  have hitems : ∀ report ∈
      ((read quote rest).items.foldl Reading.consumeItem r.bump).reports.toList,
      report.fault = .illegalCharLiteral := by
    intro report hreport
    apply h
    rw [Reading.consumeQuoted, hclosed, if_pos rfl, Reading.bump_reports]
    exact List.mem_append_left _ hreport
  have hwhole := (Reading.whole_of_foldl_consumeItem _ hitems).2
  exact ⟨⟨hclosed, hwhole⟩, bodyText_of_readItems rest hwhole⟩

end Quoted

end Lexis
