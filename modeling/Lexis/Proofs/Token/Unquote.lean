import Lexis.Proofs.Lexeme.Quoted
import Lexis.Token.Unquote

/-!
# Finding the value of a body

Between double quotes a body that is written as it has to be is accepted but for what its escapes
denote (`Unquote.readBody_of_bodyText`): the only errors left are numbers of no byte, numbers of no
character, and bytes that are no UTF-8. The other way round, whatever has a value is written as it
has to be (`Unquote.bodyText_of_readBody`). A body without a backslash is its own value, which is
what going through it character by character finds as well (`unquote_quoted`).
-/

namespace Lexis

/-- An error that is about what an escape denotes and not about how the literal is written. -/
def UnquoteError.isOfValue : UnquoteError → Bool
  | octalOutOfRange _ => true
  | invalidCodePoint _ => true
  | invalidUtf8 => true
  | _ => false

namespace Unquote

/-! ## Escapes -/

theorem takeDigits?_append {isDigit : Char → Bool} {digits : List Char}
    (h : ∀ d ∈ digits, isDigit d = true) (base : Nat) (rest : List Char) :
    takeDigits? isDigit base digits.length (digits ++ rest) =
      some (Text.digitsValue base digits, rest) := by
  have hall : digits.all isDigit = true := List.all_eq_true.2 h
  simp [takeDigits?, hall]

theorem of_takeDigits?_eq_some {isDigit : Char → Bool} {base width value : Nat}
    {text rest : List Char} (h : takeDigits? isDigit base width text = some (value, rest)) :
    ∃ digits, text = digits ++ rest ∧ digits.length = width ∧
      (∀ d ∈ digits, isDigit d = true) ∧ value = Text.digitsValue base digits := by
  unfold takeDigits? at h
  dsimp only at h
  split at h
  · next hdigits =>
    cases h
    exact ⟨text.take width, (List.take_append_drop _ _).symm, hdigits.1,
      List.all_eq_true.1 hdigits.2, rfl⟩
  · cases h

theorem simpleByte?_of_isSimple {c : Char} (h : Escape.isSimple c = true) :
    ∃ byte, simpleByte? c = some byte := by
  have hmem := Escape.isSimple_iff.1 h
  simp only [List.mem_cons, List.not_mem_nil, or_false] at hmem
  rcases hmem with rfl | rfl | rfl | rfl | rfl | rfl | rfl | rfl <;> exact ⟨_, rfl⟩

theorem isSimple_of_simpleByte? {c : Char} {byte : UInt8} (h : simpleByte? c = some byte) :
    Escape.isSimple c = true ∨ c = '\x22' := by
  rw [Escape.isSimple_iff]
  by_contra hne
  simp only [List.mem_cons, List.not_mem_nil, or_false, not_or] at hne
  simp [simpleByte?, hne] at h

theorem simpleByte?_of_isOctalDigit {c : Char} (h : Text.isOctalDigit c = true) :
    simpleByte? c = none := by
  cases hbyte : simpleByte? c with
  | none => rfl
  | some byte =>
    rcases isSimple_of_simpleByte? hbyte with hsimple | rfl
    · rw [(Escape.not_digit_of_isSimple hsimple).1] at h
      cases h
    · exact absurd h (by decide)

/-- An octal escape is read to its end, and the number is looked at only then. -/
theorem readEscape_octal {digits : List Char} (hlength : digits.length = 3)
    (hdigits : ∀ d ∈ digits, Text.isOctalDigit d = true) (rest : List Char) :
    readEscape (digits ++ rest) =
      if Text.digitsValue 8 digits < 256 then .ok ([(Text.digitsValue 8 digits).toUInt8], rest)
      else .error (.octalOutOfRange (Text.digitsValue 8 digits)) := by
  have htaken := takeDigits?_append hdigits 8 rest
  cases digits with
  | nil => cases hlength
  | cons d digits =>
    have hd := hdigits d List.mem_cons_self
    rw [hlength, List.cons_append] at htaken
    rw [List.cons_append, readEscape, simpleByte?_of_isOctalDigit hd]
    simp only [hd, if_true, htaken]

/-- A byte that is written with two hexadecimal digits. -/
theorem readEscape_byte {digits : List Char} (hlength : digits.length = 2)
    (hdigits : ∀ d ∈ digits, Text.isHexDigit d = true) (rest : List Char) :
    readEscape ('x' :: digits ++ rest) = .ok ([(Text.digitsValue 16 digits).toUInt8], rest) := by
  have htaken := takeDigits?_append hdigits 16 rest
  rw [hlength] at htaken
  have hbyte : simpleByte? 'x' = none := rfl
  have hoctal : Text.isOctalDigit 'x' = false := rfl
  simp only [List.cons_append, readEscape, hbyte, hoctal, htaken, Bool.false_eq_true, if_false,
    if_true]

/-- A character that is written with the hexadecimal digits of its number, which is looked at when
they have been read. -/
theorem readEscape_codePoint {letter : Char} {digits : List Char}
    (hletter : letter = 'u' ∧ digits.length = 4 ∨ letter = 'U' ∧ digits.length = 8)
    (hdigits : ∀ d ∈ digits, Text.isHexDigit d = true) (rest : List Char) :
    readEscape (letter :: digits ++ rest) =
      if (Text.digitsValue 16 digits).isValidChar then
        .ok (String.utf8EncodeChar (Char.ofNat (Text.digitsValue 16 digits)), rest)
      else .error (.invalidCodePoint (Text.digitsValue 16 digits)) := by
  have htaken := takeDigits?_append hdigits 16 rest
  rcases hletter with ⟨rfl, hlength⟩ | ⟨rfl, hlength⟩
  · rw [hlength] at htaken
    have hbyte : simpleByte? 'u' = none := rfl
    have hoctal : Text.isOctalDigit 'u' = false := rfl
    simp [readEscape, hbyte, hoctal, htaken]
  · rw [hlength] at htaken
    have hbyte : simpleByte? 'U' = none := rfl
    have hoctal : Text.isOctalDigit 'U' = false := rfl
    simp [readEscape, hbyte, hoctal, htaken]

/-- An escape that is written as it has to be is read to its end, or denotes nothing. That of the
quote is left out here: whether it is an escape depends on the quote. -/
theorem readEscape_of_escapeText {quote : Char} {text : List Char} (h : EscapeText quote text)
    (hquote : text ≠ [quote]) (rest : List Char) :
    (∃ bytes, readEscape (text ++ rest) = .ok (bytes, rest)) ∨
      ∃ error, readEscape (text ++ rest) = .error error ∧ error.isOfValue = true := by
  cases h with
  | quote => exact absurd rfl hquote
  | @simple c hc =>
    obtain ⟨byte, hbyte⟩ := simpleByte?_of_isSimple hc
    refine .inl ⟨[byte], ?_⟩
    simp [readEscape, hbyte]
  | octal hlength hdigits =>
    rw [readEscape_octal hlength hdigits]
    split
    · exact .inl ⟨_, rfl⟩
    · exact .inr ⟨_, rfl, rfl⟩
  | hexadecimal hwidth hlength hdigits =>
    rcases Escape.hexWidth?_eq_some_iff.1 hwidth with ⟨rfl, rfl⟩ | ⟨rfl, rfl⟩ | ⟨rfl, rfl⟩
    · exact .inl ⟨_, readEscape_byte hlength hdigits rest⟩
    · rw [readEscape_codePoint (.inl ⟨rfl, hlength⟩) hdigits]
      split
      · exact .inl ⟨_, rfl⟩
      · exact .inr ⟨_, rfl, rfl⟩
    · rw [readEscape_codePoint (.inr ⟨rfl, hlength⟩) hdigits]
      split
      · exact .inl ⟨_, rfl⟩
      · exact .inr ⟨_, rfl, rfl⟩

/-- Whatever is read as an escape is written as one. -/
theorem escapeText_of_readEscape {text rest : List Char} {bytes : List UInt8}
    (h : readEscape text = .ok (bytes, rest)) :
    ∃ escape, text = escape ++ rest ∧ EscapeText '\x22' escape := by
  unfold readEscape at h
  split at h
  · cases h
  · next letter more =>
    split at h
    · next byte hbyte =>
      cases h
      refine ⟨[letter], rfl, ?_⟩
      rcases isSimple_of_simpleByte? hbyte with hsimple | rfl
      · exact .simple hsimple
      · exact .quote
    split at h
    · split at h
      · next value after htaken =>
        obtain ⟨digits, htext, hlength, hdigits, -⟩ := of_takeDigits?_eq_some htaken
        split at h
        · cases h
          exact ⟨digits, htext, .octal hlength hdigits⟩
        · cases h
      · cases h
    split at h
    · next hx =>
      subst hx
      split at h
      · next value after htaken =>
        obtain ⟨digits, htext, hlength, hdigits, -⟩ := of_takeDigits?_eq_some htaken
        cases h
        exact ⟨'x' :: digits, by rw [htext]; rfl, .hexadecimal rfl hlength hdigits⟩
      · cases h
    split at h
    · next hu =>
      split at h
      · next value after htaken =>
        obtain ⟨digits, htext, hlength, hdigits, -⟩ := of_takeDigits?_eq_some htaken
        split at h
        · cases h
          refine ⟨letter :: digits, by rw [htext]; rfl, .hexadecimal ?_ hlength hdigits⟩
          simp only [Bool.or_eq_true, decide_eq_true_eq] at hu
          rcases hu with rfl | rfl
          · rfl
          · rfl
        · cases h
      · cases h
    · cases h

/-! ## Bodies -/

theorem readBody_nil : readBody [] = .ok [] := by
  rw [readBody]

theorem readBody_quote (rest : List Char) :
    readBody ('\x22' :: rest) = .error .unescapedQuote := by
  rw [readBody, if_pos rfl]

theorem readBody_plain {c : Char} (hquote : c ≠ '\x22') (hslash : c ≠ '\x5c') (rest : List Char) :
    readBody (c :: rest) = (readBody rest).map (String.utf8EncodeChar c ++ ·) := by
  rw [readBody, if_neg hquote, if_neg hslash]

theorem readBody_escape_of_ok {rest after : List Char} {bytes : List UInt8}
    (h : readEscape rest = .ok (bytes, after)) :
    readBody ('\x5c' :: rest) = (readBody after).map (bytes ++ ·) := by
  rw [readBody, if_neg (by decide), if_pos rfl]
  split
  · next herror =>
    rw [h] at herror
    cases herror
  · next hok =>
    rw [h] at hok
    cases hok
    rfl

theorem readBody_escape_of_error {rest : List Char} {error : UnquoteError}
    (h : readEscape rest = .error error) : readBody ('\x5c' :: rest) = .error error := by
  rw [readBody, if_neg (by decide), if_pos rfl]
  split
  · next herror =>
    rw [h] at herror
    cases herror
    rfl
  · next hok =>
    rw [h] at hok
    cases hok

/-- What can be wrong with a body that is written for quotes of the given kind, when it is read as
one between double quotes: what its escapes denote, and between apostrophes also a double quote or
an escaped apostrophe. -/
def Tolerable (quote : Char) (error : UnquoteError) : Prop :=
  error.isOfValue = true ∨
    quote = '\x27' ∧ (error = .unescapedQuote ∨ error = .unknownEscape '\x27')

private theorem tolerable_map {quote : Char} {body : Except UnquoteError (List UInt8)}
    (f : List UInt8 → List UInt8)
    (h : (∃ bytes, body = .ok bytes) ∨ ∃ error, body = .error error ∧ Tolerable quote error) :
    (∃ bytes, body.map f = .ok bytes) ∨
      ∃ error, body.map f = .error error ∧ Tolerable quote error := by
  rcases h with ⟨bytes, rfl⟩ | ⟨error, rfl, herror⟩
  · exact .inl ⟨f bytes, rfl⟩
  · exact .inr ⟨error, rfl, herror⟩

/-- A body that is written as it has to be is accepted, but for what its escapes denote and for what
the other kind of quote makes a difference to. -/
theorem readBody_of_bodyText {quote : Char} (hquote : quote = '\x22' ∨ quote = '\x27')
    {body : List Char} (h : BodyText quote body) :
    (∃ bytes, readBody body = .ok bytes) ∨
      ∃ error, readBody body = .error error ∧ Tolerable quote error := by
  induction h with
  | nil => exact .inl ⟨[], readBody_nil⟩
  | @plain c rest hne _ hslash _ ih =>
    by_cases hc : c = '\x22'
    · subst hc
      refine .inr ⟨_, readBody_quote rest, .inr ⟨?_, .inl rfl⟩⟩
      exact hquote.resolve_left (Ne.symm hne)
    · rw [readBody_plain hc hslash]
      exact tolerable_map _ ih
  | @escape text rest htext _ ih =>
    by_cases hescaped : text = [quote]
    · subst hescaped
      rcases hquote with rfl | rfl
      · have hread : readEscape (['\x22'] ++ rest) = .ok ([0x22], rest) := rfl
        rw [List.cons_append, readBody_escape_of_ok hread]
        exact tolerable_map _ ih
      · have hread : readEscape (['\x27'] ++ rest) = .error (.unknownEscape '\x27') := rfl
        exact .inr ⟨_, readBody_escape_of_error hread, .inr ⟨rfl, .inr rfl⟩⟩
    · rcases readEscape_of_escapeText htext hescaped rest with ⟨bytes, hread⟩ | ⟨error, hread, hof⟩
      · rw [List.cons_append, readBody_escape_of_ok hread]
        exact tolerable_map _ ih
      · exact .inr ⟨error, readBody_escape_of_error hread, .inl hof⟩

/-- Whatever is accepted is written as it has to be. -/
theorem bodyText_of_readBody {body : List Char} {bytes : List UInt8}
    (hend : '\n' ∉ body) (h : readBody body = .ok bytes) : BodyText '\x22' body := by
  fun_induction readBody body generalizing bytes with
  | case1 => exact .nil
  | case2 rest => cases h
  | case3 rest _ error herror => cases h
  | case4 rest escaped after hread hle _ ih =>
    cases hafter : readBody after with
    | error error =>
      rw [hafter] at h
      cases h
    | ok more =>
      obtain ⟨escape, hrest, hescape⟩ := escapeText_of_readEscape hread
      rw [hrest, List.mem_cons, List.mem_append, not_or, not_or] at hend
      rw [hrest]
      exact .escape hescape (ih hend.2.2 hafter)
  | case5 c rest hquote hslash ih =>
    rw [List.mem_cons, not_or] at hend
    cases hafter : readBody rest with
    | error error =>
      rw [hafter] at h
      cases h
    | ok more => exact .plain hquote (Ne.symm hend.1) hslash (ih hend.2 hafter)

/-! ## Whole literals -/

theorem body?_quoted (body : List Char) : body? ('\x22' :: body ++ ['\x22']) = some body := by
  simp [body?]

theorem eq_of_body?_eq_some {literal body : List Char} (h : body? literal = some body) :
    literal = '\x22' :: body ++ ['\x22'] := by
  unfold body? at h
  split at h
  · next rest =>
    split at h
    · next hlast =>
      cases h
      rw [List.cons_append, List.dropLast_append_getLast? _ hlast]
    · cases h
  · cases h

/-- The bytes of a text are a text again. -/
theorem ofBytes_bytesOf (text : List Char) :
    ofBytes (Utf8.bytesOf text) = .ok (String.ofList text) := by
  have hvalid : (Utf8.bytesOf text).toByteArray.IsValidUTF8 := .intro text rfl
  rw [ofBytes, String.fromUTF8?, dif_pos hvalid]
  rfl

/-- Without a backslash a body is read character by character to its end, or to a double quote. -/
theorem readBody_of_slash_notMem {body : List Char} (h : '\x5c' ∉ body) :
    readBody body =
      if '\x22' ∈ body then .error .unescapedQuote else .ok (Utf8.bytesOf body) := by
  induction body with
  | nil =>
    rw [readBody_nil]
    rfl
  | cons c rest ih =>
    rw [List.mem_cons, not_or] at h
    by_cases hc : c = '\x22'
    · subst hc
      rw [readBody_quote, if_pos List.mem_cons_self]
    · rw [readBody_plain hc (Ne.symm h.1), ih h.2]
      by_cases hmem : '\x22' ∈ rest
      · rw [if_pos hmem, if_pos (List.mem_cons_of_mem _ hmem)]
        rfl
      · rw [if_neg hmem, if_neg (by simp [hmem, Ne.symm hc])]
        rfl

end Unquote

open Unquote in
/-- The value of a literal is found by going through its body character by character, also where the
body has no escapes and stands for itself. -/
theorem unquote_quoted {body : List Char} (h : '\n' ∉ body) :
    unquote ('\x22' :: body ++ ['\x22']) = (readBody body).bind ofBytes := by
  have hend : body.contains '\n' = false := by simpa using h
  rw [unquote, body?_quoted]
  dsimp only
  rw [if_neg (by simp [h])]
  by_cases hslash : '\x5c' ∈ body
  · rw [if_neg (by simp [hslash])]
  · rw [if_pos (by simp [hslash]), readBody_of_slash_notMem hslash]
    by_cases hquote : '\x22' ∈ body
    · rw [if_pos (by simp [hquote]), if_pos hquote]
      rfl
    · rw [if_neg (by simp [hquote]), if_neg hquote]
      exact (ofBytes_bytesOf body).symm

namespace Unquote

/-- A literal between double quotes whose body is written as it has to be between quotes of the
given kind has a value, or fails to for a reason that is tolerable. -/
theorem unquote_of_bodyText {quote : Char} (hquote : quote = '\x22' ∨ quote = '\x27')
    {body : List Char} (h : BodyText quote body) :
    (∃ value, unquote ('\x22' :: body ++ ['\x22']) = .ok value) ∨
      ∃ error, unquote ('\x22' :: body ++ ['\x22']) = .error error ∧ Tolerable quote error := by
  have hend : '\n' ∉ body := h.newline_notMem (by rcases hquote with rfl | rfl <;> decide)
  rw [unquote_quoted hend]
  rcases readBody_of_bodyText hquote h with ⟨bytes, hread⟩ | ⟨error, hread, herror⟩
  · rw [hread]
    cases hvalue : ofBytes bytes with
    | ok value => exact .inl ⟨value, hvalue⟩
    | error error =>
      refine .inr ⟨error, hvalue, .inl ?_⟩
      unfold ofBytes at hvalue
      split at hvalue
      · cases hvalue
      · cases hvalue
        rfl
  · rw [hread]
    exact .inr ⟨error, rfl, herror⟩

/-- What has a value stands between double quotes and is written as it has to be. -/
theorem bodyText_of_unquote {literal : List Char} {value : String}
    (h : unquote literal = .ok value) :
    ∃ body, literal = '\x22' :: body ++ ['\x22'] ∧ BodyText '\x22' body := by
  cases hbody : body? literal with
  | none =>
    rw [unquote, hbody] at h
    cases h
  | some body =>
    have hliteral := eq_of_body?_eq_some hbody
    have hend : '\n' ∉ body := by
      intro hmem
      rw [unquote, hbody] at h
      dsimp only at h
      rw [if_pos (by simp [hmem])] at h
      cases h
    rw [hliteral, unquote_quoted hend] at h
    cases hread : readBody body with
    | error error =>
      rw [hread] at h
      cases h
    | ok bytes => exact ⟨body, hliteral, bodyText_of_readBody hend hread⟩

end Unquote

end Lexis
