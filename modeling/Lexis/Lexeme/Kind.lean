import Lexis.Text.Quoted

/-!
# Kinds of lexemes

A lexeme is of a named category or is a single character. As a number, a category is negative and a
character is its code point, so that one integer tells all kinds apart.
-/

namespace Lexis

/-- What kind of lexeme a stretch of source is. -/
inductive Kind where
  | endOfInput
  | identifier
  | integer
  | float
  | char
  | string
  | rawString
  | comment
  /-- A character that stands for itself. -/
  | rune (c : Char)
deriving DecidableEq, Repr

namespace Kind

/-- The kinds that are no single characters, in order of their codes from -1 down. -/
def categories : List Kind :=
  [endOfInput, identifier, integer, float, char, string, rawString, comment]

/-- The number that stands for a kind. -/
def code : Kind → Int
  | endOfInput => -1
  | identifier => -2
  | integer => -3
  | float => -4
  | char => -5
  | string => -6
  | rawString => -7
  | comment => -8
  | rune c => c.toNat

/-- The name of a category. -/
def name? : Kind → Option String
  | endOfInput => some "EOF"
  | identifier => some "Ident"
  | integer => some "Int"
  | float => some "Float"
  | char => some "Char"
  | string => some "String"
  | rawString => some "RawString"
  | comment => some "Comment"
  | rune _ => none

/-- The character whose code point is `code`. -/
def rune? (code : Int) : Option Char :=
  if 0 ≤ code ∧ code.toNat.isValidChar then some (Char.ofNat code.toNat) else none

/-- The name of the category that `code` stands for. -/
def categoryName? (code : Int) : Option String :=
  (categories.find? (·.code == code)).bind name?

/-- How a kind is called in messages: by its name, as a quoted character, or by its number. -/
def describe (code : Int) : String :=
  match categoryName? code with
  | some name => name
  | none =>
    match rune? code with
    | some c => Text.doubleQuoted c
    | none => "<" ++ toString code ++ ">"

end Kind

end Lexis
