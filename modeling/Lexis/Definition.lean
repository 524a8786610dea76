import Lexis.Lexer
import Lexis.SymbolTable

/-!
# Definitions

A definition is what a parser has to know about its lexers: how to get one, and what the kinds of
its tokens are called. Anything that provides both can stand in for the standard one.
-/

namespace Lexis

/-- A way to make lexers whose kinds have fixed names. -/
structure Definition where
  /-- A lexer for what a reader has. -/
  lex : Reader → Except Failure Lexer
  /-- The names of the kinds that its tokens can have. -/
  symbols : SymbolTable

namespace Definition

/-- The definition of the lexers of this library. -/
def standard : Definition where
  lex := Lexer.ofReader
  symbols := .ofList <| Kind.categories.filterMap fun kind =>
    kind.name?.map fun name => (name, kind.code)

end Definition

end Lexis
