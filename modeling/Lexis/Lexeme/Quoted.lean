import Lexis.Source.Character
import Lexis.Text.Digit

/-!
# Quoted literals

A literal between two quotes of one kind is a list of items, each a character or an escape. It
ends at the closing quote, or where the line or the input ends without one.
-/

namespace Lexis

/-- What follows a backslash in a quoted literal. -/
structure Escape where
  /-- The longest run of characters after the backslash that an escape can start with. -/
  body : List SourceChar
  /-- Whether the run is a whole escape. -/
  complete : Bool
deriving DecidableEq, Repr

namespace Escape

/-- A letter that stands for a control character after a backslash, or the backslash itself. -/
def isSimple (c : Char) : Bool :=
  ['a', 'b', 'f', 'n', 'r', 't', 'v', '\x5c'].contains c

/-- Number of hexadecimal digits that must follow a letter after a backslash. -/
def hexWidth? (c : Char) : Option Nat :=
  if c = 'x' then some 2 else if c = 'u' then some 4 else if c = 'U' then some 8 else none

/-- The digits at the start of `source`, at most `width`. -/
def digits (isDigit : Char → Bool) (width : Nat) (source : List SourceChar) : List SourceChar :=
  (source.take width).takeWhile fun c => isDigit c.char

/-- The escape that follows a backslash in a literal between quotes of the given kind. -/
def read (quote : Char) : List SourceChar → Escape
  | [] => ⟨[], false⟩
  | c :: rest =>
    if c.char = quote || isSimple c.char then ⟨[c], true⟩
    else if Text.isOctalDigit c.char then
      let run := digits Text.isOctalDigit 3 (c :: rest)
      ⟨run, run.length = 3⟩
    else
      match hexWidth? c.char with
      | some width =>
        let run := digits Text.isHexDigit width rest
        ⟨c :: run, run.length = width⟩
      | none => ⟨[], false⟩

end Escape

/-- One step in the body of a quoted literal. -/
inductive QuotedItem where
  | plain (c : SourceChar)
  | escape (e : Escape)
deriving DecidableEq, Repr

namespace QuotedItem

/-- The backslash that starts an escape. -/
def backslash : SourceChar := .valid '\x5c'

/-- The characters of the item. -/
def chars : QuotedItem → List SourceChar
  | plain c => [c]
  | escape e => backslash :: e.body

end QuotedItem

/-- A literal between two quotes of one kind. -/
structure Quoted where
  quote : Char
  items : List QuotedItem
  /-- Whether a closing quote follows the items. -/
  closed : Bool
deriving DecidableEq, Repr

namespace Quoted

/-- The items after an opening quote, and whether a closing quote follows them. -/
def readItems (quote : Char) : List SourceChar → List QuotedItem × Bool
  | [] => ([], false)
  | c :: rest =>
    if c.char = quote then ([], true)
    else if c.char = '\n' then ([], false)
    else if c.char = '\x5c' then
      let e := Escape.read quote rest
      let (items, closed) := readItems quote (rest.drop e.body.length)
      (.escape e :: items, closed)
    else
      let (items, closed) := readItems quote rest
      (.plain c :: items, closed)
termination_by source => source.length
decreasing_by all_goals simp only [List.length_drop, List.length_cons]; omega

/-- The literal whose opening quote stands before `rest`. -/
def read (quote : Char) (rest : List SourceChar) : Quoted :=
  let (items, closed) := readItems quote rest
  ⟨quote, items, closed⟩

/-- The characters between the quotes. -/
def body (q : Quoted) : List SourceChar :=
  q.items.flatMap QuotedItem.chars

/-- The characters of the literal, quotes included. -/
def chars (q : Quoted) : List SourceChar :=
  .valid q.quote :: q.body ++ if q.closed then [.valid q.quote] else []

end Quoted

end Lexis
