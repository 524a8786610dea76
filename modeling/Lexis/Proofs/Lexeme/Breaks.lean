import Lexis.Proofs.Lexeme.Backslashes

/-!
# Escapes that break off

An escape is read as far as any escape could go on (`Escape.isGreatest_length_body`). If that makes
no whole one, it has broken off, and reading goes on with the character that did not fit, which may
be anything: the quote, a line end or another backslash. Still items are read up to the character
that counting backslashes finds, and break off where introducing backslashes are not followed by a
whole escape (`Quoted.readItems_agrees`). Each that does is reported, once and there
(`Reading.about_consumeQuoted`).
-/

namespace Lexis

/-- A character that literals are put between. None of those begins an escape, and none stands for
bytes that are no UTF-8. -/
structure IsQuote (quote : Char) : Prop where
  not_octal : Text.isOctalDigit quote = false
  not_hex : Text.isHexDigit quote = false
  not_letter : Escape.hexWidth? quote = none
  ne_newline : quote ≠ '\n'
  ne_backslash : quote ≠ '\x5c'
  ne_replacement : quote ≠ SourceChar.replacement

theorem isQuote_double : IsQuote '\x22' := by
  constructor <;> decide

theorem isQuote_single : IsQuote '\x27' := by
  constructor <;> decide

namespace Escape

variable {quote : Char}

/-! ## Escapes and the text that they are read from -/

theorem digits_map_plainText (isDigit : Char → Bool) (width : Nat) (source : List SourceChar) :
    digits isDigit width ((plainText source).map .valid) =
      (plainText (digits isDigit width source)).map .valid := by
  have hmap (l : List SourceChar) :
      (plainText l).map SourceChar.valid = l.map fun c => .valid c.char := List.map_map
  rw [hmap, hmap, digits, digits, ← List.map_take, List.takeWhile_map]
  rfl

/-- What an escape is read as depends on how its source looks only. -/
theorem read_map_plainText (quote : Char) (source : List SourceChar) :
    read quote ((plainText source).map .valid) =
      ⟨(plainText (read quote source).body).map .valid, (read quote source).complete⟩ := by
  cases source with
  | nil => rfl
  | cons c rest =>
    have hcons := digits_map_plainText Text.isOctalDigit 3 (c :: rest)
    rw [plainText_cons, List.map_cons] at hcons
    rw [plainText_cons, List.map_cons, read, read, SourceChar.char_valid]
    split
    · rfl
    split
    · simp [hcons]
    · cases hexWidth? c.char with
      | none => rfl
      | some width => simp [digits_map_plainText]

/-- A whole escape at the start of a source is read. -/
theorem read_of_starts (hquote : IsQuote quote) {escape : List Char} {source : List SourceChar}
    (h : EscapeText quote escape) (hstarts : escape <+: plainText source) :
    (read quote source).complete = true ∧ plainText (read quote source).body = escape := by
  obtain ⟨more, hmore⟩ := hstarts
  have hread := read_map_plainText quote source
  rw [← hmore, List.map_append,
    read_of_escapeText hquote.not_octal hquote.not_letter h] at hread
  have hbody := congrArg (fun e => plainText e.body) hread
  have hcomplete := congrArg complete hread
  simp only [plainText_map_valid] at hbody
  exact ⟨hcomplete.symm, hbody.symm⟩

/-- An escape is found to be whole where one stands. -/
theorem complete_iff (hquote : IsQuote quote) (source : List SourceChar) :
    (read quote source).complete = true ↔
      ∃ escape, EscapeText quote escape ∧ escape <+: plainText source := by
  constructor
  · intro h
    refine ⟨_, escapeText_of_complete h, ?_⟩
    obtain ⟨more, hmore⟩ := body_read_isPrefix quote source
    exact ⟨plainText more, by rw [← plainText_append, hmore]⟩
  · rintro ⟨escape, h, hstarts⟩
    exact (read_of_starts hquote h hstarts).1

/-! ## How far an escape can go on -/

theorem length_digits_le (isDigit : Char → Bool) (width : Nat) (source : List SourceChar) :
    (digits isDigit width source).length ≤ width :=
  Nat.le_trans (List.takeWhile_prefix _).length_le (List.length_take_le _ _)

/-- As many digits are taken as stand there, up to the number that is asked for. -/
theorem le_length_digits {isDigit : Char → Bool} {width n : Nat} {source : List SourceChar}
    (hwidth : n ≤ width) (hlength : n ≤ source.length)
    (h : ∀ c ∈ source.take n, isDigit c.char = true) :
    n ≤ (digits isDigit width source).length := by
  have hsplit : source.take width = source.take n ++ (source.drop n).take (width - n) := by
    rw [← List.take_add, Nat.add_sub_cancel' hwidth]
  rw [digits, hsplit, List.takeWhile_append_of_pos h, List.length_append, List.length_take]
  omega

theorem digits_ne_nil {isDigit : Char → Bool} {width : Nat} (hwidth : 0 < width) {c : SourceChar}
    (hc : isDigit c.char = true) (rest : List SourceChar) :
    digits isDigit width (c :: rest) ≠ [] := by
  have hlength : 1 ≤ (digits isDigit width (c :: rest)).length :=
    le_length_digits hwidth (Nat.succ_le_succ (Nat.zero_le _)) (by simpa using hc)
  exact List.length_pos_iff.1 hlength

/-- Digits can be added up to the number that is asked for. -/
theorem exists_more_digits (isDigit : Char → Bool) (hzero : isDigit '0' = true) (width : Nat)
    (source : List SourceChar) :
    ∃ more : List Char, (∀ d ∈ plainText (digits isDigit width source) ++ more, isDigit d = true) ∧
      (plainText (digits isDigit width source) ++ more).length = width := by
  refine ⟨List.replicate (width - (digits isDigit width source).length) '0', ?_, ?_⟩
  · intro d hd
    rcases List.mem_append.1 hd with hd | hd
    · exact holds_of_mem_digits hd
    · rw [List.eq_of_mem_replicate hd]
      exact hzero
  · have hle := length_digits_le isDigit width source
    rw [List.length_append, length_plainText, List.length_replicate]
    omega

/-- What is read of an escape can go on to a whole one. -/
theorem exists_escapeText (quote : Char) (source : List SourceChar) :
    ∃ escape, EscapeText quote escape ∧ plainText (read quote source).body <+: escape := by
  cases source with
  | nil => exact ⟨[quote], .quote, List.nil_prefix⟩
  | cons c rest =>
    rw [read]
    split
    · next hc =>
      rw [Bool.or_eq_true, decide_eq_true_eq] at hc
      rcases hc with hc | hc
      · exact ⟨[quote], .quote, ⟨[], by rw [← hc]; rfl⟩⟩
      · exact ⟨[c.char], .simple hc, List.prefix_rfl⟩
    split
    · obtain ⟨more, hdigits, hlength⟩ := exists_more_digits Text.isOctalDigit rfl 3 (c :: rest)
      exact ⟨_, .octal hlength hdigits, List.prefix_append _ _⟩
    split
    · next width hwidth =>
      obtain ⟨more, hdigits, hlength⟩ := exists_more_digits Text.isHexDigit rfl width rest
      refine ⟨c.char :: (plainText (digits Text.isHexDigit width rest) ++ more),
        .hexadecimal hwidth hlength hdigits, ?_⟩
      exact (List.prefix_cons_inj _).2 (List.prefix_append _ _)
    · exact ⟨[quote], .quote, List.nil_prefix⟩

/-- No escape goes on further than what is read. -/
theorem le_length_body (hquote : IsQuote quote) {escape : List Char} {source : List SourceChar}
    {n : Nat} (h : EscapeText quote escape) (hlength : n ≤ source.length)
    (hstarts : plainText (source.take n) <+: escape) : n ≤ (read quote source).body.length := by
  cases n with
  | zero => exact Nat.zero_le _
  | succ n =>
    cases source with
    | nil => cases hlength
    | cons c rest =>
      rw [List.take_succ_cons, plainText_cons] at hstarts
      have hrest : n ≤ rest.length := Nat.le_of_succ_le_succ hlength
      -- an escape of one character has no room for another
      have hone (hshort : plainText (rest.take n) <+: []) : n = 0 := by
        have hle := hshort.length_le
        rw [length_plainText, List.length_take, List.length_nil] at hle
        omega
      cases h with
      | quote =>
        obtain ⟨hc, hshort⟩ := List.cons_prefix_cons.1 hstarts
        rw [hone hshort, read, if_pos (by simp [hc])]
        exact Nat.le_refl 1
      | simple hsimple =>
        obtain ⟨rfl, hshort⟩ := List.cons_prefix_cons.1 hstarts
        rw [hone hshort, read, if_pos (by simp [hsimple])]
        exact Nat.le_refl 1
      | octal hthree hdigits =>
        have htaken : ∀ d ∈ (c :: rest).take (n + 1), Text.isOctalDigit d.char = true :=
          fun d hd => hdigits _ (hstarts.subset (List.mem_map_of_mem hd))
        have hle := hstarts.length_le
        rw [List.length_cons, length_plainText, List.length_take, hthree] at hle
        rw [read_of_isOctalDigit hquote.not_octal (htaken c List.mem_cons_self)]
        exact le_length_digits (by omega) hlength htaken
      | @hexadecimal letter width digits hwidth hcount hdigits =>
        obtain ⟨rfl, hmore⟩ := List.cons_prefix_cons.1 hstarts
        have htaken : ∀ d ∈ rest.take n, Text.isHexDigit d.char = true :=
          fun d hd => hdigits _ (hmore.subset (List.mem_map_of_mem hd))
        have hle := hmore.length_le
        rw [length_plainText, List.length_take, hcount] at hle
        rw [read_of_hexWidth? hquote.not_letter hwidth]
        exact Nat.succ_le_succ (le_length_digits (by omega) hrest htaken)

/-- What is read of an escape is all that escapes can go on with. -/
theorem isGreatest_length_body (hquote : IsQuote quote) (source : List SourceChar) :
    IsGreatest {n | n ≤ source.length ∧ ∃ escape, EscapeText quote escape ∧
      plainText (source.take n) <+: escape} (read quote source).body.length := by
  have hbody := body_read_isPrefix quote source
  constructor
  · refine ⟨hbody.length_le, ?_⟩
    rw [← List.prefix_iff_eq_take.1 hbody]
    exact exists_escapeText quote source
  · rintro n ⟨hlength, escape, h, hstarts⟩
    exact le_length_body hquote h hlength hstarts

end Escape

namespace Quoted

variable {quote : Char}

/-! ## Counting over escapes -/

/-- A property that the quote, line ends and backslashes do not have makes a character inert. -/
theorem isInert_of_eq_true (holds : Char → Bool) (hquote : holds quote = false)
    (hend : holds '\n' = false) (hslash : holds '\x5c' = false) {c : Char} (h : holds c = true) :
    IsInert quote c := by
  have hne {d : Char} (hd : holds d = false) : c ≠ d := by
    rintro rfl
    rw [h] at hd
    cases hd
  exact ⟨hne hquote, hne hend, hne hslash⟩

theorem isInert_of_isHexDigit (hquote : IsQuote quote) {c : Char} (h : Text.isHexDigit c = true) :
    IsInert quote c :=
  isInert_of_eq_true Text.isHexDigit hquote.not_hex (by decide) (by decide) h

theorem isInert_of_isOctalDigit (hquote : IsQuote quote) {c : Char}
    (h : Text.isOctalDigit c = true) : IsInert quote c :=
  isInert_of_eq_true Text.isOctalDigit hquote.not_octal (by decide) (by decide) h

theorem isInert_of_hexWidth? (hquote : IsQuote quote) {c : Char} {width : Nat}
    (h : Escape.hexWidth? c = some width) : IsInert quote c := by
  refine isInert_of_eq_true (fun d => (Escape.hexWidth? d).isSome) ?_ (by decide) (by decide) ?_
  · rw [hquote.not_letter]
    rfl
  · rw [h]
    rfl

/-- An escape that is introduced is crossed as far as it is read, and only where nothing of it could
be read does its backslash still count for what follows. -/
theorem crosses_escape (hquote : IsQuote quote) (source : List SourceChar) :
    Crosses quote false ('\x5c' :: plainText (Escape.read quote source).body)
      (Escape.read quote source).body.isEmpty [0] := by
  have hslash : Crosses quote false ['\x5c'] true [0] :=
    Crosses.single (by simp [isStop, hquote.ne_backslash.symm])
  have hinert {body : List SourceChar} (hne : body ≠ [])
      (h : ∀ c ∈ body, IsInert quote c.char) :
      Crosses quote false ('\x5c' :: plainText body) body.isEmpty [0] := by
    rw [List.isEmpty_eq_false_iff.2 hne]
    refine hslash.append (crosses_of_inert (by simpa using hne) ?_ true)
    exact List.forall_mem_map.2 h
  cases source with
  | nil => exact hslash
  | cons c rest =>
    rw [Escape.read]
    split
    · next hc =>
      rw [Bool.or_eq_true, decide_eq_true_eq] at hc
      have hend : c.char ≠ '\n' := by
        rcases hc with hc | hc
        · rw [hc]
          exact hquote.ne_newline
        · rintro hline
          rw [hline] at hc
          cases hc
      have hescaped : Crosses quote true [c.char] (oddNext true c.char) _ :=
        Crosses.single (by simp [isStop, hend])
      have hnone : oddNext true c.char = false := Bool.and_false _
      rw [hnone] at hescaped
      exact hslash.append hescaped
    split
    · next hc =>
      refine hinert (Escape.digits_ne_nil (by decide) hc rest) fun d hd => ?_
      exact isInert_of_isOctalDigit hquote (Escape.holds_of_mem_digits (List.mem_map_of_mem hd))
    split
    · next width hwidth =>
      refine hinert (List.cons_ne_nil _ _) fun d hd => ?_
      rcases List.mem_cons.1 hd with rfl | hd
      · exact isInert_of_hexWidth? hquote hwidth
      · exact isInert_of_isHexDigit hquote (Escape.holds_of_mem_digits (List.mem_map_of_mem hd))
    · exact hslash

/-- Where nothing of an escape could be read, the next character is none that can be escaped. -/
theorem ne_of_body_eq_nil {source : List SourceChar} (h : (Escape.read quote source).body = []) :
    ∀ c ∈ source.head?, c.char ≠ quote ∧ c.char ≠ '\x5c' := by
  intro c hc
  cases source with
  | nil => cases hc
  | cons d rest =>
    cases hc
    rw [Escape.read] at h
    split at h
    · cases h
    · next hd =>
      refine ⟨fun hquote => hd (by simp [hquote]), fun hslash => hd ?_⟩
      rw [hslash]
      exact Bool.or_true _

/-! ## Escapes that break off -/

/-- Moves two indices. -/
def shift (n : Nat) (pair : Nat × Nat) : Nat × Nat :=
  (pair.1 + n, pair.2 + n)

/-- The index of the backslash of an escape that breaks off, and the index of the character that no
escape goes on with, both counted from the item. -/
def break? : QuotedItem → Option (Nat × Nat)
  | .plain _ => none
  | .escape e => if e.complete then none else some (0, e.body.length + 1)

/-- The same for all escapes among items that break off. -/
def breaks : List QuotedItem → List (Nat × Nat)
  | [] => []
  | item :: items => (break? item).toList ++ (breaks items).map (shift item.chars.length)

/-- The same for the escape that is introduced by the backslash at an index of a source. -/
def breakAt (quote : Char) (source : List SourceChar) (i : Nat) : Option (Nat × Nat) :=
  (break? (.escape (Escape.read quote (source.drop (i + 1))))).map (shift i)

theorem breakAt_add (quote : Char) (source : List SourceChar) (i n : Nat) :
    breakAt quote source (i + n) = (breakAt quote (source.drop n) i).map (shift n) := by
  have hdrop : source.drop (i + n + 1) = (source.drop n).drop (i + 1) := by
    rw [List.drop_drop]
    congr 1
    omega
  have hshift : shift (i + n) = shift n ∘ shift i := by
    funext pair
    simp [shift, Nat.add_assoc]
  rw [breakAt, breakAt, Option.map_map, hdrop, hshift]

theorem filterMap_breakAt_add (quote : Char) (source : List SourceChar) (n : Nat)
    (marks : List Nat) :
    (marks.map (· + n)).filterMap (breakAt quote source) =
      (marks.filterMap (breakAt quote (source.drop n))).map (shift n) := by
  rw [List.filterMap_map, List.map_filterMap]
  congr 1
  funext i
  exact breakAt_add quote source i n

/-- Reading items comes to where counting backslashes does, and the escapes among them that break
off are those that introducing backslashes do not introduce a whole one with. -/
structure Agrees (quote : Char) (odd : Bool) (source : List SourceChar)
    (items : List QuotedItem × Bool) : Prop where
  extent_eq : extent quote odd (plainText source) = (items.1.flatMap QuotedItem.chars).length
  closed_iff : items.2 = true ↔
    (plainText source)[extent quote odd (plainText source)]? = some quote
  breaks_eq : breaks items.1 =
    (introducers quote odd (plainText source)).filterMap (breakAt quote source)

/-- An item is crossed, and what follows it agrees. -/
theorem Agrees.cons {odd oddAfter : Bool} {item : QuotedItem} {items : List QuotedItem}
    {closed : Bool} {source : List SourceChar} {marks : List Nat}
    (hcrosses : Crosses quote odd (plainText item.chars) oddAfter marks)
    (hitem : item.chars <+: source)
    (hmarks : (break? item).toList = marks.filterMap (breakAt quote source))
    (h : Agrees quote oddAfter (source.drop item.chars.length) (items, closed)) :
    Agrees quote odd source (item :: items, closed) := by
  have hsource : plainText source =
      plainText item.chars ++ plainText (source.drop item.chars.length) := by
    rw [← plainText_append]
    congr 1
    conv_lhs => rw [← List.take_append_drop item.chars.length source]
    rw [← List.prefix_iff_eq_take.1 hitem]
  have hextent := h.extent_eq
  have hclosed := h.closed_iff
  have hbreaks := h.breaks_eq
  have hlength : (plainText item.chars).length = item.chars.length := length_plainText _
  constructor
  · rw [hsource, hcrosses.extent_eq, hextent, hlength, List.flatMap_cons, List.length_append]
  · rw [hsource, hcrosses.extent_eq, List.getElem?_append_right (Nat.le_add_right _ _),
      Nat.add_sub_cancel_left]
    exact hclosed
  · rw [hsource, hcrosses.introducers_eq, hlength, List.filterMap_append, filterMap_breakAt_add,
      ← hbreaks, ← hmarks]
    rfl

/-- An escape that is introduced agrees, where what follows it does. -/
theorem Agrees.escape (hquote : IsQuote quote) {rest : List SourceChar} {items : List QuotedItem}
    {closed : Bool}
    (h : Agrees quote (Escape.read quote rest).body.isEmpty
      (rest.drop (Escape.read quote rest).body.length) (items, closed)) :
    Agrees quote false (QuotedItem.backslash :: rest)
      (.escape (Escape.read quote rest) :: items, closed) := by
  refine Agrees.cons (crosses_escape hquote rest) ?_ ?_ h
  · exact (List.prefix_cons_inj _).2 (Escape.body_read_isPrefix quote rest)
  · have hhere : breakAt quote (QuotedItem.backslash :: rest) 0 =
        break? (.escape (Escape.read quote rest)) :=
      Option.map_id_apply
    rw [List.filterMap_cons, hhere]
    cases break? (.escape (Escape.read quote rest)) with
    | none => rfl
    | some pair => rfl

/-- Where a literal stops, there are no items. -/
theorem agrees_of_isStop {odd : Bool} {c : SourceChar} (rest : List SourceChar)
    (h : isStop quote odd c.char = true) {closed : Bool}
    (hclosed : closed = true ↔ c.char = quote) : Agrees quote odd (c :: rest) ([], closed) where
  extent_eq := extent_cons_of_isStop h _
  closed_iff := by
    rw [plainText_cons, extent_cons_of_isStop h, hclosed]
    simp
  breaks_eq := by
    rw [plainText_cons, introducers_cons_of_isStop h]
    rfl

/-- Items are read up to where counting backslashes finds the end of the literal, whether escapes
are whole or not. Behind an odd number of backslashes there must be no character that they could
escape. -/
theorem readItems_agrees (hquote : IsQuote quote) {odd : Bool} {source : List SourceChar}
    (hodd : odd = true → ∀ c ∈ source.head?, c.char ≠ quote ∧ c.char ≠ '\x5c') :
    Agrees quote odd source (readItems quote source) := by
  fun_induction readItems quote source generalizing odd with
  | case1 =>
    constructor
    · rfl
    · simp
    · rfl
  | case2 c rest hc =>
    have heven : odd = false := by
      by_contra hne
      exact (hodd (Bool.not_eq_false _ ▸ hne) c rfl).1 hc
    refine agrees_of_isStop rest ?_ ⟨fun _ => hc, fun _ => rfl⟩
    simp [isStop, hc, heven]
  | case3 c rest hne hc =>
    refine agrees_of_isStop rest ?_ ⟨fun h => absurd h Bool.false_ne_true, fun h => absurd h hne⟩
    simp [isStop, hc]
  | @case4 c rest hne hline hc e items closed hread ih =>
    -- behind an odd number of backslashes this one would have been read as an escape
    have heven : odd = false := by
      by_contra hne
      exact (hodd (Bool.not_eq_false _ ▸ hne) c rfl).2 hc
    have hvalid : c = QuotedItem.backslash := Lexeme.eq_valid_of_char_eq hc (by decide)
    rw [heven, hvalid]
    refine Agrees.escape hquote ?_
    rw [← hread]
    -- the backslash still counts only if nothing was read behind it
    refine ih fun hempty => ?_
    have hnil : e.body = [] := List.isEmpty_iff.1 hempty
    rw [hnil]
    exact ne_of_body_eq_nil hnil
  | @case5 c rest hne hline hslash items closed hread ih =>
    have hinert : IsInert quote c.char := ⟨hne, hline, hslash⟩
    refine Agrees.cons (hinert.crosses odd) ?_ ?_ ?_
    · exact ⟨rest, rfl⟩
    · rfl
    · rw [← hread]
      exact ih fun h => absurd h Bool.false_ne_true

end Quoted

/-! ## Reports about one thing -/

namespace Reading

/-- The reports about one thing, in order. -/
def about (r : Reading) (fault : Fault) : List Report :=
  r.reports.toList.filter (·.fault == fault)

variable {fault : Fault}

/-- Among reports about characters there is none about anything else. -/
theorem filter_eq_nil_of_isOfCharacter (hfault : fault.isOfCharacter = false)
    {reports : List Report} (h : ∀ report ∈ reports, report.fault.isOfCharacter = true) :
    reports.filter (·.fault == fault) = [] := by
  rw [List.filter_eq_nil_iff]
  intro report hreport
  rw [beq_iff_eq]
  rintro rfl
  rw [h report hreport] at hfault
  cases hfault

/-- Characters are reported for being faulty only. -/
theorem about_bumps (hfault : fault.isOfCharacter = false) (r : Reading) (n : Nat) :
    (r.bumps n).about fault = r.about fault := by
  have hnone : (SourceChar.reportsFrom r.position (r.rest.take n)).filter (·.fault == fault) =
      [] :=
    filter_eq_nil_of_isOfCharacter hfault fun _ => SourceChar.isOfCharacter_of_mem_reportsFrom
  rw [about, bumps_reports, List.filter_append, hnone, List.append_nil]
  rfl

theorem about_bump (hfault : fault.isOfCharacter = false) (r : Reading) :
    r.bump.about fault = r.about fault :=
  about_bumps hfault r 1

theorem about_reportAt (r : Reading) (p : Position) (f : Fault) :
    (r.reportAt p f).about fault = r.about fault ++ if f = fault then [⟨p, f⟩] else [] := by
  rw [about, reportAt, Array.toList_push, List.filter_append]
  congr 1
  by_cases hf : f = fault
  · simp [hf]
  · simp [hf]

/-- An escape that breaks off is reported where it does. -/
theorem about_consumeItem (r : Reading) (item : QuotedItem) :
    (r.consumeItem item).about .invalidEscape = r.about .invalidEscape ++
      (Quoted.break? item).toList.map fun pair =>
        ⟨(r.cursor.advance pair.2).position, .invalidEscape⟩ := by
  cases item with
  | plain c => exact (about_bump rfl r).trans (List.append_nil _).symm
  | escape e =>
    have hread : (r.bump.bumps e.body.length).about .invalidEscape = r.about .invalidEscape := by
      rw [about_bumps rfl, about_bump rfl]
    have hplace : (r.bump.bumps e.body.length).position =
        (r.cursor.advance (e.body.length + 1)).position := by
      rw [position, bumps_cursor, bump_cursor, Cursor.bump_eq_advance, Cursor.advance_advance,
        Nat.add_comm]
    simp only [consumeItem, Quoted.break?]
    split
    · exact hread.trans (List.append_nil _).symm
    · rw [report, about_reportAt, hread, hplace]
      rfl

/-- Items give rise to no report of another kind. -/
theorem about_consumeItem_of_ne (hfault : fault.isOfCharacter = false)
    (hne : fault ≠ .invalidEscape) (r : Reading) (item : QuotedItem) :
    (r.consumeItem item).about fault = r.about fault := by
  cases item with
  | plain c => exact about_bump hfault r
  | escape e =>
    have hread : (r.bump.bumps e.body.length).about fault = r.about fault := by
      rw [about_bumps hfault, about_bump hfault]
    simp only [consumeItem]
    split
    · exact hread
    · rw [report, about_reportAt, hread, if_neg (Ne.symm hne), List.append_nil]

theorem about_foldl_consumeItem (items : List QuotedItem) (r : Reading) :
    (items.foldl consumeItem r).about .invalidEscape = r.about .invalidEscape ++
      (Quoted.breaks items).map fun pair =>
        ⟨(r.cursor.advance pair.2).position, .invalidEscape⟩ := by
  induction items generalizing r with
  | nil => exact (List.append_nil _).symm
  | cons item items ih =>
    have hcursor := (passage_consumeItem r item).cursor_eq
    rw [List.foldl_cons, ih, about_consumeItem, Quoted.breaks, List.map_append, List.append_assoc,
      List.map_map, hcursor]
    congr 2
    refine List.map_congr_left fun pair _ => ?_
    rw [Cursor.advance_advance, Nat.add_comm]
    rfl

theorem about_foldl_consumeItem_of_ne (hfault : fault.isOfCharacter = false)
    (hne : fault ≠ .invalidEscape) (items : List QuotedItem) (r : Reading) :
    (items.foldl consumeItem r).about fault = r.about fault := by
  induction items generalizing r with
  | nil => rfl
  | cons item items ih => rw [List.foldl_cons, ih, about_consumeItem_of_ne hfault hne]

/-- A literal is reported for every escape that breaks off, and for its end if it lacks its closing
quote. -/
theorem about_consumeQuoted (c : Cursor) (q : Quoted) :
    ((ofCursor c).consumeQuoted q).about .invalidEscape = ((Quoted.breaks q.items).map
        (Quoted.shift 1)).map (fun pair => ⟨(c.advance pair.2).position, .invalidEscape⟩) ∧
      ((ofCursor c).consumeQuoted q).about .literalNotTerminated =
        (if q.closed then []
          else [⟨(c.advance (q.body.length + 1)).position, .literalNotTerminated⟩]) ∧
      ((ofCursor c).consumeQuoted q).about .illegalCharLiteral = [] := by
  have hstart (fault : Fault) (hfault : fault.isOfCharacter = false) :
      (ofCursor c).bump.about fault = [] := about_bump hfault _
  have hcursor (n : Nat) : (ofCursor c).bump.cursor.advance n = c.advance (n + 1) := by
    rw [bump_cursor, Cursor.bump_eq_advance, Cursor.advance_advance, Nat.add_comm]
    rfl
  have hbreaks : (q.items.foldl consumeItem (ofCursor c).bump).about .invalidEscape =
      ((Quoted.breaks q.items).map (Quoted.shift 1)).map fun pair =>
        ⟨(c.advance pair.2).position, .invalidEscape⟩ := by
    rw [about_foldl_consumeItem, hstart _ rfl, List.nil_append, List.map_map]
    refine List.map_congr_left fun pair _ => ?_
    rw [hcursor]
    rfl
  have hnone (fault : Fault) (hfault : fault.isOfCharacter = false) (hne : fault ≠ .invalidEscape) :
      (q.items.foldl consumeItem (ofCursor c).bump).about fault = [] := by
    rw [about_foldl_consumeItem_of_ne hfault hne, hstart fault hfault]
  have hplace : (q.items.foldl consumeItem (ofCursor c).bump).position =
      (c.advance (q.body.length + 1)).position := by
    rw [position, (passage_foldl_consumeItem q.items _).cursor_eq, hcursor]
    rfl
  simp only [consumeQuoted]
  split
  · rw [about_bump rfl, about_bump rfl, about_bump rfl, hnone .literalNotTerminated rfl (by decide),
      hnone .illegalCharLiteral rfl (by decide)]
    exact ⟨hbreaks, rfl, rfl⟩
  · rw [report, about_reportAt, about_reportAt, about_reportAt,
      hnone .literalNotTerminated rfl (by decide), hnone .illegalCharLiteral rfl (by decide),
      hplace, if_neg (by decide), if_pos rfl, if_neg (by decide), List.append_nil]
    exact ⟨hbreaks, rfl, rfl⟩

end Reading

end Lexis
