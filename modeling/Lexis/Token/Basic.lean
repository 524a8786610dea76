import Lexis.Lexeme.Kind
import Lexis.Source.Position

/-!
# Tokens

A token is what a parser gets to see: the code of a kind, a value and a place. In the value of a
quoted literal the escapes have been resolved.
-/

namespace Lexis

/-- A position in a named source. The name is empty if the source has none. -/
structure Place where
  file : String
  position : Position
deriving DecidableEq, Repr

namespace Place

/-- The place of a token that comes from no source. -/
def unset : Place := ⟨"", ⟨0, 0, 0⟩⟩

/-- Name, line and column, as messages show them. -/
def render (p : Place) : String :=
  (if p.file.isEmpty then "<source>" else p.file) ++ ":" ++ p.position.render

end Place

/-- A stretch of source with a kind and a meaning. -/
structure Token where
  /-- The code of the token's kind. Codes without a meaning here may have one for a parser. -/
  kind : Int
  value : String
  place : Place
deriving DecidableEq, Repr

namespace Token

/-- The token that a character stands for by itself. -/
def rune (c : Char) : Token :=
  ⟨(Kind.rune c).code, String.singleton c, Place.unset⟩

/-- An end of input that comes from no source. -/
def endOfInput : Token :=
  ⟨Kind.endOfInput.code, "<<EOF>>", Place.unset⟩

/-- The token with nothing in it. -/
def empty : Token :=
  ⟨0, "", Place.unset⟩

instance : Inhabited Token := ⟨empty⟩

/-- Whether the token tells the end of the input. -/
def isEndOfInput (t : Token) : Bool :=
  t.kind == Kind.endOfInput.code

/-- A token is shown as its value. -/
def render (t : Token) : String :=
  t.value

end Token

end Lexis
