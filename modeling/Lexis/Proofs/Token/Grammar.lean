import Lexis.Proofs.Token.Denotation
import Lexis.Proofs.Token.Digits

/-!
# The grammar of literals

Between double quotes stand items, each a character or an escape, and each stands for bytes
(`Unquote.Item`). A literal has a value if its body is made of items, in which case it is in one way
only (`Unquote.items_unique`), and if their bytes are those of a text, which is the value then. If
not, the first thing that is wrong with it is the error (`Unquote.Rejects`). That this is what
`unquote` finds is `Unquote.unquote_follows_grammar`.
-/

namespace Lexis.Unquote

/-! ## Items -/

/-- The letters that stand for one byte after a backslash between double quotes. -/
def letters : List (Char × UInt8) :=
  ('\x22', 0x22) :: simpleEscapes

/-- What may stand between double quotes as one item, and the bytes that it stands for. -/
inductive ItemDenotes : List Char → List UInt8 → Prop
  | plain {c : Char} (hquote : c ≠ '\x22') (hslash : c ≠ '\x5c') (hend : c ≠ '\n') :
      ItemDenotes [c] (String.utf8EncodeChar c)
  | escape {text : List Char} {bytes : List UInt8} (h : EscapeDenotes letters text bytes) :
      ItemDenotes ('\x5c' :: text) bytes

/-- A character or an escape. -/
@[ext]
structure Item where
  text : List Char
  bytes : List UInt8
  denotes : ItemDenotes text bytes

/-- How items are written. -/
def textOf (items : List Item) : List Char :=
  items.flatMap Item.text

/-- The bytes that items stand for. -/
def bytesOf (items : List Item) : List UInt8 :=
  items.flatMap Item.bytes

/-- What stands behind a backslash that begins no item, and the error about it. -/
inductive EscapeFails : List Char → UnquoteError → Prop
  | nothing : EscapeFails [] (.incompleteEscape '\x5c')
  | unknown {c : Char} {rest : List Char} (hletter : ∀ byte, (c, byte) ∉ letters)
      (hoctal : Text.isOctalDigit c = false) (hhex : c ∉ ['x', 'u', 'U']) :
      EscapeFails (c :: rest) (.unknownEscape c)
  /-- Fewer than three octal digits, though there is one. -/
  | octal {c : Char} {rest : List Char} (hc : Text.isOctalDigit c = true)
      (hshort : ∀ digits more, digits.length = 3 → (∀ d ∈ digits, Text.isOctalDigit d = true) →
        c :: rest ≠ digits ++ more) :
      EscapeFails (c :: rest) (.incompleteEscape c)
  /-- Fewer hexadecimal digits than the letter asks for. -/
  | hexadecimal {letter : Char} {width : Nat} {rest : List Char}
      (hletter : (letter, width) ∈ [('x', 2), ('u', 4), ('U', 8)])
      (hshort : ∀ digits more, digits.length = width → (∀ d ∈ digits, Text.isHexDigit d = true) →
        rest ≠ digits ++ more) :
      EscapeFails (letter :: rest) (.incompleteEscape letter)
  | outOfRange {digits rest : List Char} (hlength : digits.length = 3)
      (hdigits : ∀ d ∈ digits, Text.isOctalDigit d = true)
      (hvalue : 256 ≤ Text.digitsValue 8 digits) :
      EscapeFails (digits ++ rest) (.octalOutOfRange (Text.digitsValue 8 digits))
  /-- The number of no character. -/
  | codePoint {letter : Char} {digits rest : List Char}
      (hletter : letter = 'u' ∧ digits.length = 4 ∨ letter = 'U' ∧ digits.length = 8)
      (hdigits : ∀ d ∈ digits, Text.isHexDigit d = true)
      (hvalue : ¬ (Text.digitsValue 16 digits).isValidChar) :
      EscapeFails (letter :: digits ++ rest) (.invalidCodePoint (Text.digitsValue 16 digits))

/-- A text that does not start with an item and is not empty either, and the error about it. -/
inductive Malformed : List Char → UnquoteError → Prop
  | quote {rest : List Char} : Malformed ('\x22' :: rest) .unescapedQuote
  | escape {text : List Char} {error : UnquoteError} (h : EscapeFails text error) :
      Malformed ('\x5c' :: text) error

/-- Why a literal has no value. The quotes are looked at first, then line ends, then items from the
left, and their bytes at last. -/
inductive Rejects : List Char → UnquoteError → Prop
  | notQuoted {literal : List Char} (h : ∀ body, literal ≠ '\x22' :: body ++ ['\x22']) :
      Rejects literal .notQuoted
  | newline {body : List Char} (h : '\n' ∈ body) : Rejects ('\x22' :: body ++ ['\x22']) .newline
  | malformed (items : List Item) {rest : List Char} {error : UnquoteError} (hend : '\n' ∉ rest)
      (h : Malformed rest error) :
      Rejects ('\x22' :: (textOf items ++ rest) ++ ['\x22']) error
  | invalidUtf8 {items : List Item}
      (h : ∀ value : String, Utf8.bytesOf value.toList ≠ bytesOf items) :
      Rejects ('\x22' :: textOf items ++ ['\x22']) .invalidUtf8

/-! ## Escapes -/

/-- Besides the escapes that any quotes allow there is that of the double quote. -/
theorem escapeDenotes_or {text : List Char} {bytes : List UInt8}
    (h : EscapeDenotes letters text bytes) :
    text = ['\x22'] ∧ bytes = [0x22] ∨ EscapeDenotes simpleEscapes text bytes := by
  cases h with
  | simple hc =>
    rcases List.mem_cons.1 hc with hquote | hsimple
    · cases hquote
      exact .inl ⟨rfl, rfl⟩
    · exact .inr (.simple hsimple)
  | octal hlength hdigits hvalue => exact .inr (.octal hlength hdigits hvalue)
  | byte hlength hdigits => exact .inr (.byte hlength hdigits)
  | codePoint hletter hdigits hvalue => exact .inr (.codePoint hletter hdigits hvalue)

theorem readEscape_of_denotes {text : List Char} {bytes : List UInt8}
    (h : EscapeDenotes letters text bytes) (rest : List Char) :
    readEscape (text ++ rest) = .ok (bytes, rest) := by
  rcases escapeDenotes_or h with ⟨rfl, rfl⟩ | h
  · rfl
  · exact readEscape_of_escapeDenotes h rest

theorem newline_notMem_of_denotes {text : List Char} {bytes : List UInt8}
    (h : EscapeDenotes letters text bytes) : '\n' ∉ text := by
  rcases escapeDenotes_or h with ⟨rfl, -⟩ | h
  · decide
  · exact (h.escapeText '\x22').newline_notMem (by decide)

theorem exists_mem_letters {c : Char} {byte : UInt8} (h : simpleByte? c = some byte) :
    ∃ byte, (c, byte) ∈ letters := by
  rcases isSimple_of_simpleByte? h with hsimple | rfl
  · obtain ⟨byte, hmem⟩ := exists_mem_simpleEscapes hsimple
    exact ⟨byte, List.mem_cons_of_mem _ hmem⟩
  · exact ⟨0x22, List.mem_cons_self⟩

theorem takeDigits?_eq_none {isDigit : Char → Bool} {width : Nat} {text : List Char}
    (h : ∀ digits more, digits.length = width → (∀ d ∈ digits, isDigit d = true) →
      text ≠ digits ++ more) (base : Nat) :
    takeDigits? isDigit base width text = none := by
  cases htaken : takeDigits? isDigit base width text with
  | none => rfl
  | some taken =>
    obtain ⟨digits, htext, hlength, hdigits, -⟩ := of_takeDigits?_eq_some htaken
    exact absurd htext (h digits taken.2 hlength hdigits)

/-- Digits stand at the start of a text in the number asked for, or do not. -/
theorem exists_digits_or (isDigit : Char → Bool) (width : Nat) (text : List Char) :
    (∃ digits more, digits.length = width ∧ (∀ d ∈ digits, isDigit d = true) ∧
      text = digits ++ more) ∨
      ∀ digits more, digits.length = width → (∀ d ∈ digits, isDigit d = true) →
        text ≠ digits ++ more := by
  by_cases h : ∃ digits more, digits.length = width ∧ (∀ d ∈ digits, isDigit d = true) ∧
      text = digits ++ more
  · exact .inl h
  · exact .inr fun digits more hlength hdigits htext => h ⟨digits, more, hlength, hdigits, htext⟩

/-- What stands behind a backslash begins with an escape or has something wrong with it. -/
theorem escape_or_fails (text : List Char) :
    (∃ escape bytes rest, text = escape ++ rest ∧ EscapeDenotes letters escape bytes) ∨
      ∃ error, EscapeFails text error := by
  cases text with
  | nil => exact .inr ⟨_, .nothing⟩
  | cons c rest =>
    by_cases hletter : ∃ byte, (c, byte) ∈ letters
    · obtain ⟨byte, hmem⟩ := hletter
      exact .inl ⟨[c], [byte], rest, rfl, .simple hmem⟩
    by_cases hoctal : Text.isOctalDigit c = true
    · rcases exists_digits_or Text.isOctalDigit 3 (c :: rest) with
        ⟨digits, more, hlength, hdigits, htext⟩ | hshort
      · rw [htext]
        rcases Nat.lt_or_ge (Text.digitsValue 8 digits) 256 with hvalue | hvalue
        · exact .inl ⟨digits, _, more, rfl, .octal hlength hdigits hvalue⟩
        · exact .inr ⟨_, .outOfRange hlength hdigits hvalue⟩
      · exact .inr ⟨_, .octal hoctal hshort⟩
    by_cases hhex : ∃ width, (c, width) ∈ [('x', 2), ('u', 4), ('U', 8)]
    · obtain ⟨width, hmem⟩ := hhex
      rcases exists_digits_or Text.isHexDigit width rest with
        ⟨digits, more, hlength, hdigits, htext⟩ | hshort
      · rw [htext]
        by_cases hx : c = 'x'
        · subst hx
          have hwidth : width = 2 := by simpa using hmem
          exact .inl ⟨'x' :: digits, _, more, rfl, .byte (hlength.trans hwidth) hdigits⟩
        have hu : c = 'u' ∧ digits.length = 4 ∨ c = 'U' ∧ digits.length = 8 := by
          simpa [hx, hlength] using hmem
        by_cases hvalue : (Text.digitsValue 16 digits).isValidChar
        · exact .inl ⟨c :: digits, _, more, rfl, .codePoint hu hdigits hvalue⟩
        · exact .inr ⟨_, .codePoint hu hdigits hvalue⟩
      · exact .inr ⟨_, .hexadecimal hmem hshort⟩
    · refine .inr ⟨_, .unknown (not_exists.1 hletter) (by simpa using hoctal) ?_⟩
      intro hmem
      refine hhex ?_
      simp only [List.mem_cons, List.not_mem_nil, or_false] at hmem
      rcases hmem with rfl | rfl | rfl
      · exact ⟨2, by simp⟩
      · exact ⟨4, by simp⟩
      · exact ⟨8, by simp⟩

theorem readEscape_of_fails {text : List Char} {error : UnquoteError} (h : EscapeFails text error) :
    readEscape text = .error error := by
  cases h with
  | nothing => rfl
  | @unknown c rest hletter hoctal hhex =>
    have hnone : simpleByte? c = none := by
      cases hbyte : simpleByte? c with
      | none => rfl
      | some byte =>
        obtain ⟨byte, hmem⟩ := exists_mem_letters hbyte
        exact absurd hmem (hletter byte)
    simp only [List.mem_cons, List.not_mem_nil, or_false, not_or] at hhex
    simp [readEscape, hnone, hoctal, hhex]
  | octal hc hshort =>
    have hnone := takeDigits?_eq_none hshort 8
    simp [readEscape, simpleByte?_of_isOctalDigit hc, hc, hnone]
  | @hexadecimal letter width rest hletter hshort =>
    have hnone := takeDigits?_eq_none hshort 16
    simp only [List.mem_cons, Prod.mk.injEq, List.not_mem_nil, or_false] at hletter
    rcases hletter with ⟨rfl, rfl⟩ | ⟨rfl, rfl⟩ | ⟨rfl, rfl⟩
    · have hbyte : simpleByte? 'x' = none := rfl
      have hoctal : Text.isOctalDigit 'x' = false := rfl
      simp [readEscape, hbyte, hoctal, hnone]
    · have hbyte : simpleByte? 'u' = none := rfl
      have hoctal : Text.isOctalDigit 'u' = false := rfl
      simp [readEscape, hbyte, hoctal, hnone]
    · have hbyte : simpleByte? 'U' = none := rfl
      have hoctal : Text.isOctalDigit 'U' = false := rfl
      simp [readEscape, hbyte, hoctal, hnone]
  | outOfRange hlength hdigits hvalue =>
    rw [readEscape_octal hlength hdigits, if_neg (by omega)]
  | codePoint hletter hdigits hvalue =>
    rw [readEscape_codePoint hletter hdigits, if_neg hvalue]

/-! ## Bodies -/

theorem textOf_cons (item : Item) (items : List Item) :
    textOf (item :: items) = item.text ++ textOf items :=
  List.flatMap_cons

theorem bytesOf_cons (item : Item) (items : List Item) :
    bytesOf (item :: items) = item.bytes ++ bytesOf items :=
  List.flatMap_cons

/-- An item is read as it is written, whatever follows it. -/
theorem readBody_item (item : Item) (rest : List Char) :
    readBody (item.text ++ rest) = (readBody rest).map (item.bytes ++ ·) := by
  obtain ⟨text, bytes, hdenotes⟩ := item
  cases hdenotes with
  | plain hquote hslash hend => exact readBody_plain hquote hslash rest
  | escape h => exact readBody_escape_of_ok (readEscape_of_denotes h rest)

theorem readBody_items (items : List Item) (rest : List Char) :
    readBody (textOf items ++ rest) = (readBody rest).map (bytesOf items ++ ·) := by
  induction items with
  | nil =>
    show readBody rest = (readBody rest).map ([] ++ ·)
    cases readBody rest with
    | error error => rfl
    | ok bytes => rfl
  | cons item items ih =>
    rw [textOf_cons, List.append_assoc, readBody_item, ih, bytesOf_cons]
    cases readBody rest with
    | error error => rfl
    | ok bytes => exact congrArg Except.ok (List.append_assoc _ _ _).symm

theorem readBody_textOf (items : List Item) : readBody (textOf items) = .ok (bytesOf items) := by
  have h := readBody_items items []
  rw [List.append_nil, readBody_nil] at h
  rw [h]
  exact congrArg Except.ok (List.append_nil _)

theorem readBody_of_malformed {text : List Char} {error : UnquoteError} (h : Malformed text error) :
    readBody text = .error error := by
  cases h with
  | quote => exact readBody_quote _
  | escape h => exact readBody_escape_of_error (readEscape_of_fails h)

theorem Item.newline_notMem (item : Item) : '\n' ∉ item.text := by
  obtain ⟨text, bytes, hdenotes⟩ := item
  cases hdenotes with
  | plain hquote hslash hend => simp [Ne.symm hend]
  | escape h => simp [newline_notMem_of_denotes h]

theorem newline_notMem_textOf (items : List Item) : '\n' ∉ textOf items := by
  intro hmem
  obtain ⟨item, -, hitem⟩ := List.mem_flatMap.1 hmem
  exact item.newline_notMem hitem

theorem Item.text_ne_nil (item : Item) : item.text ≠ [] := by
  obtain ⟨text, bytes, hdenotes⟩ := item
  cases hdenotes with
  | plain => exact List.cons_ne_nil _ _
  | escape => exact List.cons_ne_nil _ _

/-- A text on one line starts with an item, has something wrong with it or is empty. -/
theorem item_or_malformed {c : Char} (hend : c ≠ '\n') (rest : List Char) :
    (∃ (item : Item) (more : List Char), c :: rest = item.text ++ more) ∨
      ∃ error, Malformed (c :: rest) error := by
  by_cases hquote : c = '\x22'
  · subst hquote
    exact .inr ⟨_, .quote⟩
  by_cases hslash : c = '\x5c'
  · subst hslash
    rcases escape_or_fails rest with ⟨escape, bytes, more, htext, hescape⟩ | ⟨error, herror⟩
    · exact .inl ⟨⟨'\x5c' :: escape, bytes, .escape hescape⟩, more, by rw [htext]; rfl⟩
    · exact .inr ⟨error, .escape herror⟩
  · exact .inl ⟨⟨[c], _, .plain hquote hslash hend⟩, rest, rfl⟩

/-- A body on one line is made of items up to the first that is malformed. -/
theorem items_or_malformed {body : List Char} (hend : '\n' ∉ body) :
    (∃ items, body = textOf items) ∨
      ∃ items rest error, body = textOf items ++ rest ∧ Malformed rest error := by
  induction hlength : body.length using Nat.strongRecOn generalizing body with
  | _ length ih =>
    subst hlength
    cases body with
    | nil => exact .inl ⟨[], rfl⟩
    | cons c rest =>
      rw [List.mem_cons, not_or] at hend
      rcases item_or_malformed (Ne.symm hend.1) rest with ⟨item, more, htext⟩ | ⟨error, h⟩
      · have hmore : '\n' ∉ more := by
          intro hmem
          have hmem : '\n' ∈ c :: rest := htext ▸ List.mem_append_right _ hmem
          exact (List.mem_cons.1 hmem).elim hend.1 hend.2
        have hshorter : more.length < (c :: rest).length := by
          have hitem := List.length_pos_iff.2 item.text_ne_nil
          rw [htext, List.length_append]
          omega
        rcases ih more.length hshorter hmore rfl with ⟨items, hitems⟩ |
          ⟨items, last, error, hitems, h⟩
        · exact .inl ⟨item :: items, by rw [htext, hitems, textOf_cons]⟩
        · refine .inr ⟨item :: items, last, error, ?_, h⟩
          rw [htext, hitems, textOf_cons, List.append_assoc]
      · exact .inr ⟨[], c :: rest, error, rfl, h⟩

/-- Where items start alike, they are the same. -/
theorem Item.append_inj {a b : Item} {more more' : List Char}
    (h : a.text ++ more = b.text ++ more') : a = b ∧ more = more' := by
  obtain ⟨text, bytes, hdenotes⟩ := a
  obtain ⟨text', bytes', hdenotes'⟩ := b
  cases hdenotes with
  | plain hquote hslash hend =>
    cases hdenotes' with
    | plain hquote' hslash' hend' =>
      cases h
      exact ⟨rfl, rfl⟩
    | escape h' =>
      cases h
      exact absurd rfl hslash
  | @escape text bytes hescape =>
    cases hdenotes' with
    | plain hquote' hslash' hend' =>
      cases h
      exact absurd rfl hslash'
    | @escape text' bytes' hescape' =>
      -- reading finds out where an escape ends and which bytes it stands for
      have htail : text ++ more = text' ++ more' := List.tail_eq_of_cons_eq h
      have hread := readEscape_of_denotes hescape more
      rw [htail, readEscape_of_denotes hescape' more'] at hread
      cases hread
      cases List.append_cancel_right htail
      exact ⟨rfl, rfl⟩

/-- A body is made of items in one way only. -/
theorem items_unique {items items' : List Item} (h : textOf items = textOf items') :
    items = items' := by
  induction items generalizing items' with
  | nil =>
    cases items' with
    | nil => rfl
    | cons item items' =>
      rw [textOf_cons] at h
      exact absurd (List.append_eq_nil_iff.1 h.symm).1 item.text_ne_nil
  | cons item items ih =>
    cases items' with
    | nil =>
      rw [textOf_cons] at h
      exact absurd (List.append_eq_nil_iff.1 h).1 item.text_ne_nil
    | cons item' items' =>
      rw [textOf_cons, textOf_cons] at h
      obtain ⟨rfl, hrest⟩ := Item.append_inj h
      rw [ih hrest]

/-! ## Values -/

/-- Bytes are those of a text, which is found, or there is no such text. -/
theorem ofBytes_cases (bytes : List UInt8) :
    (∃ value : String, Utf8.bytesOf value.toList = bytes ∧ ofBytes bytes = .ok value) ∨
      (∀ value : String, Utf8.bytesOf value.toList ≠ bytes) ∧
        ofBytes bytes = .error .invalidUtf8 := by
  by_cases hvalid : bytes.toByteArray.IsValidUTF8
  · obtain ⟨text, htext⟩ := hvalid
    have hbytes : bytes = Utf8.bytesOf text := by
      have hlist := congrArg (fun array => array.data.toList) htext
      rw [List.utf8Encode, List.toList_data_toByteArray, List.toList_data_toByteArray] at hlist
      exact hlist
    refine .inl ⟨String.ofList text, ?_, ?_⟩
    · rw [String.toList_ofList, hbytes]
    · rw [hbytes, ofBytes_bytesOf]
  · refine .inr ⟨?_, ?_⟩
    · rintro value rfl
      exact hvalid (.intro value.toList rfl)
    · rw [ofBytes, String.fromUTF8?, dif_neg hvalid]

/-- A literal made of items has the text of their bytes as its value. -/
theorem unquote_of_items {items : List Item} {value : String}
    (h : Utf8.bytesOf value.toList = bytesOf items) :
    unquote ('\x22' :: textOf items ++ ['\x22']) = .ok value := by
  rw [unquote_quoted (newline_notMem_textOf items), readBody_textOf, ← h]
  show ofBytes _ = _
  rw [ofBytes_bytesOf, String.ofList_toList]

/-- A literal with something wrong with it has no value. -/
theorem unquote_of_rejects {literal : List Char} {error : UnquoteError}
    (h : Rejects literal error) : unquote literal = .error error := by
  cases h with
  | notQuoted h =>
    cases hbody : body? literal with
    | none => rw [unquote, hbody]
    | some body => exact absurd (eq_of_body?_eq_some hbody) (h body)
  | newline h =>
    rw [unquote, body?_quoted]
    dsimp only
    rw [if_pos (by simpa using h)]
  | @malformed items rest error hend h =>
    have hbody : '\n' ∉ textOf items ++ rest := by
      rw [List.mem_append, not_or]
      exact ⟨newline_notMem_textOf items, hend⟩
    rw [unquote_quoted hbody, readBody_items, readBody_of_malformed h]
    rfl
  | invalidUtf8 h =>
    rw [unquote_quoted (newline_notMem_textOf _), readBody_textOf]
    rcases ofBytes_cases (bytesOf _) with ⟨value, hvalue, -⟩ | ⟨-, herror⟩
    · exact absurd hvalue (h value)
    · exact herror

/-- Every literal is made of items whose bytes are those of a text, or has something wrong with
it. -/
theorem items_or_rejects (literal : List Char) :
    (∃ (items : List Item) (value : String), literal = '\x22' :: textOf items ++ ['\x22'] ∧
      Utf8.bytesOf value.toList = bytesOf items) ∨ ∃ error, Rejects literal error := by
  by_cases hquoted : ∃ body, literal = '\x22' :: body ++ ['\x22']
  · obtain ⟨body, rfl⟩ := hquoted
    by_cases hend : '\n' ∈ body
    · exact .inr ⟨_, .newline hend⟩
    rcases items_or_malformed hend with ⟨items, rfl⟩ | ⟨items, rest, error, rfl, h⟩
    · rcases ofBytes_cases (bytesOf items) with ⟨value, hvalue, -⟩ | ⟨hnone, -⟩
      · exact .inl ⟨items, value, rfl, hvalue⟩
      · exact .inr ⟨_, .invalidUtf8 hnone⟩
    · exact .inr ⟨error, .malformed items (fun hmem => hend (List.mem_append_right _ hmem)) h⟩
  · exact .inr ⟨_, .notQuoted (not_exists.1 hquoted)⟩

/-- A literal has a value exactly if it is made of items between double quotes, and the value is the
text of their bytes. If it has none, the error is about the first thing that is wrong with it. There
is never more than one way to divide a body into items, a body without a backslash can be read in
either way, and no number on the way is too large for the bits that it is kept in. -/
theorem unquote_follows_grammar (literal : List Char) :
    (∀ value, unquote literal = .ok value ↔ ∃ items, literal = '\x22' :: textOf items ++ ['\x22'] ∧
      Utf8.bytesOf value.toList = bytesOf items) ∧
    (∀ error, unquote literal = .error error ↔ Rejects literal error) ∧
    (∀ items items', textOf items = textOf items' → items = items') ∧
    (∀ body, '\x5c' ∉ body →
      (if '\x22' ∈ body then .error .unescapedQuote else .ok (String.ofList body)) =
        (readBody body).bind ofBytes) ∧
    ∀ text, readEscapeWithin? text = some (readEscape text) := by
  refine ⟨?_, ?_, fun _ _ => items_unique, ?_, readEscapeWithin?_eq⟩
  · intro value
    constructor
    · intro hvalue
      rcases items_or_rejects literal with ⟨items, found, rfl, hfound⟩ | ⟨error, h⟩
      · rw [unquote_of_items hfound] at hvalue
        cases hvalue
        exact ⟨items, rfl, hfound⟩
      · rw [unquote_of_rejects h] at hvalue
        cases hvalue
    · rintro ⟨items, rfl, hitems⟩
      exact unquote_of_items hitems
  · intro error
    constructor
    · intro herror
      rcases items_or_rejects literal with ⟨items, found, rfl, hfound⟩ | ⟨other, h⟩
      · rw [unquote_of_items hfound] at herror
        cases herror
      · rw [unquote_of_rejects h] at herror
        cases herror
        exact h
    · exact unquote_of_rejects
  · intro body hslash
    rw [readBody_of_slash_notMem hslash]
    split
    · rfl
    · exact (ofBytes_bytesOf body).symm

end Lexis.Unquote
