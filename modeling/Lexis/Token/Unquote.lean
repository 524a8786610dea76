import Lexis.Source.Decoding
import Lexis.Text.Digit
import Lexis.Text.Quoted

/-!
# What quoted literals denote

The value of a literal between double quotes is found byte by byte: a character gives its UTF-8
bytes, an escape gives one byte or the bytes of one character, and what comes out has to be UTF-8.
-/

namespace Lexis

/-- Why a literal has no value. -/
inductive UnquoteError where
  /-- It is not between double quotes. -/
  | notQuoted
  | newline
  | unescapedQuote
  | unknownEscape (escape : Char)
  /-- An escape that wants more digits. -/
  | incompleteEscape (escape : Char)
  | octalOutOfRange (value : Nat)
  /-- The number of no character. -/
  | invalidCodePoint (value : Nat)
  | invalidUtf8
deriving DecidableEq, Repr

namespace UnquoteError

/-- The error in words. -/
def message : UnquoteError → String
  | notQuoted => "literal is not enclosed in double quotes"
  | newline => "newline in string literal"
  | unescapedQuote => "unescaped '\x22' in string literal"
  | unknownEscape escape => "unknown escape sequence \\" ++ String.singleton escape
  | incompleteEscape escape =>
    "escape sequence \\" ++ String.singleton escape ++ " is incomplete"
  | octalOutOfRange value => "octal escape value " ++ toString value ++ " > 255"
  | invalidCodePoint value =>
    "escape sequence is an invalid Unicode code point 0x" ++ String.ofList (Text.hex value)
  | invalidUtf8 => "string literal is not valid UTF-8"

end UnquoteError

namespace Unquote

/-- The byte that a letter stands for after a backslash. -/
def simpleByte? (c : Char) : Option UInt8 :=
  if c = 'a' then some 0x07
  else if c = 'b' then some 0x08
  else if c = 'f' then some 0x0C
  else if c = 'n' then some 0x0A
  else if c = 'r' then some 0x0D
  else if c = 't' then some 0x09
  else if c = 'v' then some 0x0B
  else if c = '\x5c' then some 0x5C
  else if c = '\x22' then some 0x22
  else none

/-- The number that the first `width` characters stand for as digits, and what follows them. -/
def takeDigits? (isDigit : Char → Bool) (base width : Nat) (text : List Char) :
    Option (Nat × List Char) :=
  let digits := text.take width
  if digits.length = width ∧ digits.all isDigit then
    some (Text.digitsValue base digits, text.drop width)
  else none

/-- The bytes of the escape at the start of `text`, which follows a backslash, and what follows the
escape. -/
def readEscape : List Char → Except UnquoteError (List UInt8 × List Char)
  | [] => .error (.incompleteEscape '\x5c')
  | escape :: rest =>
    match simpleByte? escape with
    | some byte => .ok ([byte], rest)
    | none =>
      if Text.isOctalDigit escape then
        match takeDigits? Text.isOctalDigit 8 3 (escape :: rest) with
        | some (value, rest) =>
          if value < 256 then .ok ([value.toUInt8], rest) else .error (.octalOutOfRange value)
        | none => .error (.incompleteEscape escape)
      else if escape = 'x' then
        match takeDigits? Text.isHexDigit 16 2 rest with
        | some (value, rest) => .ok ([value.toUInt8], rest)
        | none => .error (.incompleteEscape escape)
      else if escape = 'u' || escape = 'U' then
        match takeDigits? Text.isHexDigit 16 (if escape = 'u' then 4 else 8) rest with
        | some (value, rest) =>
          if value.isValidChar then .ok (String.utf8EncodeChar (Char.ofNat value), rest)
          else .error (.invalidCodePoint value)
        | none => .error (.incompleteEscape escape)
      else .error (.unknownEscape escape)

theorem length_of_takeDigits? {isDigit : Char → Bool} {base width value : Nat}
    {text rest : List Char} (h : takeDigits? isDigit base width text = some (value, rest)) :
    rest.length ≤ text.length := by
  simp only [takeDigits?] at h
  split at h
  · cases h
    simp
  · cases h

/-- Reading an escape never gives characters back. -/
theorem length_of_readEscape {text rest : List Char} {bytes : List UInt8}
    (h : readEscape text = .ok (bytes, rest)) : rest.length ≤ text.length := by
  unfold readEscape at h
  split at h
  · cases h
  split at h
  · cases h
    simp
  repeat' split at h
  all_goals cases h
  all_goals
    have := length_of_takeDigits? ‹_›
    simp only [List.length_cons] at this ⊢
    omega

/-- The bytes that the body of a literal stands for. -/
def readBody : List Char → Except UnquoteError (List UInt8)
  | [] => .ok []
  | c :: rest =>
    if c = '\x22' then .error .unescapedQuote
    else if c = '\x5c' then
      match h : readEscape rest with
      | .error e => .error e
      | .ok (bytes, after) =>
        have := length_of_readEscape h
        (readBody after).map (bytes ++ ·)
    else (readBody rest).map (String.utf8EncodeChar c ++ ·)
termination_by text => text.length

/-- The text between two double quotes, if `literal` is enclosed in them. -/
def body? : List Char → Option (List Char)
  | '\x22' :: rest =>
    if rest.getLast? = some '\x22' then some rest.dropLast else none
  | _ => none

/-- The text that bytes encode. -/
def ofBytes (bytes : List UInt8) : Except UnquoteError String :=
  match String.fromUTF8? bytes.toByteArray with
  | some value => .ok value
  | none => .error .invalidUtf8

end Unquote

open Unquote in
/-- The value of a literal between double quotes. A body without escapes stands for itself. -/
def unquote (literal : List Char) : Except UnquoteError String :=
  match body? literal with
  | none => .error .notQuoted
  | some body =>
    if body.contains '\n' then .error .newline
    else if !body.contains '\x5c' then
      if body.contains '\x22' then .error .unescapedQuote else .ok (String.ofList body)
    else (readBody body).bind ofBytes

end Lexis
