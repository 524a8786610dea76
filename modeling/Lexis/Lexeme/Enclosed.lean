import Lexis.Source.Character

/-!
# Text up to a mark

Raw strings and comments run up to the first place where a fixed mark stands, and nothing inside
them is looked at.
-/

namespace Lexis

/-- Text that runs up to a mark. -/
structure Enclosed where
  /-- Everything before the mark. -/
  body : List SourceChar
  /-- Whether the mark was found. Without one the text runs to the end of the input. -/
  closed : Bool
deriving DecidableEq, Repr

namespace Enclosed

/-- Whether `mark` stands at the start of `source`. -/
def startsWith (mark : List Char) (source : List SourceChar) : Bool :=
  plainText (source.take mark.length) == mark

/-- Number of characters before the first place where `mark` stands. -/
def indexOf? (mark : List Char) : List SourceChar → Option Nat
  | [] => none
  | c :: rest =>
    if startsWith mark (c :: rest) then some 0 else (indexOf? mark rest).map (· + 1)

/-- The text at the start of `source`, up to `mark`. -/
def read (mark : List Char) (source : List SourceChar) : Enclosed :=
  match indexOf? mark source with
  | some count => ⟨source.take count, true⟩
  | none => ⟨source, false⟩

/-- The characters of the text, with `mark` if it was found. -/
def charsThrough (mark : List Char) (e : Enclosed) : List SourceChar :=
  e.body ++ if e.closed then mark.map .valid else []

end Enclosed

end Lexis
