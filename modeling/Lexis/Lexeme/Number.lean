import Lexis.Lexeme.Fault
import Lexis.Lexeme.Kind
import Lexis.Source.Character
import Lexis.Text.Digit

/-!
# Numbers

A number is taken apart into its radix mark, whole part, fraction and exponent. Each part is the
longest run of characters that fits, whether or not the number as a whole is well formed;
`Number.faults` then says what is wrong with it.
-/

namespace Lexis

/-- How the digits before the exponent of a number are to be read. -/
inductive Radix where
  | decimal
  /-- Octal because of a leading zero. As the mantissa of a float such digits are decimal. -/
  | leadingZero
  | octal
  | hexadecimal
  | binary
deriving DecidableEq, Repr

namespace Radix

/-- The number of different digits. -/
def base : Radix → Nat
  | decimal => 10
  | leadingZero => 8
  | octal => 8
  | hexadecimal => 16
  | binary => 2

/-- How a number of this radix is called in messages. -/
def numeral : Radix → Numeral
  | decimal => .decimal
  | leadingZero => .octal
  | octal => .octal
  | hexadecimal => .hexadecimal
  | binary => .binary

/-- Whether `c` is read as a digit. Any decimal digit is, also one too large for the radix. -/
def isDigit (radix : Radix) (c : Char) : Bool :=
  if radix = hexadecimal then Text.isHexDigit c else c.isDigit

/-- Whether `c` is read as part of a run of digits. -/
def accepts (radix : Radix) (c : Char) : Bool :=
  radix.isDigit c || c == '_'

/-- Whether the digit `c` is too large. -/
def exceeds (radix : Radix) (c : Char) : Bool :=
  radix ≠ hexadecimal && c.isDigit && radix.base ≤ Text.digitValue c

/-- The radix that a letter after a leading zero asks for. -/
def ofLetter? (c : Char) : Option Radix :=
  if c = 'x' ∨ c = 'X' then some hexadecimal
  else if c = 'o' ∨ c = 'O' then some octal
  else if c = 'b' ∨ c = 'B' then some binary
  else none

/-- The radix of a number and the characters that announce it. -/
def ofLead : List SourceChar → Radix × List Char
  | .valid '0' :: .valid letter :: _ =>
    match ofLetter? letter with
    | some radix => (radix, ['0', letter])
    | none => (leadingZero, ['0'])
  | .valid '0' :: _ => (leadingZero, ['0'])
  | _ => (decimal, [])

/-- The run of digits and underscores at the start of `source`. -/
def run (radix : Radix) (source : List SourceChar) : List Char :=
  plainText (source.takeWhile fun c => radix.accepts c.char)

end Radix

/-- The exponent of a number. -/
structure Exponent where
  /-- The letter that announces it. -/
  marker : Char
  /-- A plus or minus, or nothing. -/
  sign : List Char
  digits : List Char
deriving DecidableEq, Repr

namespace Exponent

/-- The characters of the exponent. -/
def text (e : Exponent) : List Char :=
  e.marker :: e.sign ++ e.digits

/-- Whether `c` announces an exponent. -/
def isMarker (c : Char) : Bool :=
  c = 'e' || c = 'E' || c = 'p' || c = 'P'

/-- Whether the exponent is to the base two. -/
def isBinary (e : Exponent) : Bool :=
  e.marker = 'p' || e.marker = 'P'

/-- The exponent at the start of `source`, if there is one. -/
def read? : List SourceChar → Option Exponent
  | .valid marker :: rest =>
    if isMarker marker then
      let sign := plainText ((rest.take 1).filter fun c => c.char = '+' || c.char = '-')
      some ⟨marker, sign, Radix.decimal.run (rest.drop sign.length)⟩
    else none
  | _ => none

end Exponent

/-- A number as it is written. -/
structure Number where
  radix : Radix
  /-- A leading zero, with the letter after it if that sets the radix. -/
  lead : List Char
  /-- The digits before the radix point, less the lead. -/
  whole : List Char
  /-- The digits after the radix point, if there is a point. -/
  fraction : Option (List Char)
  exponent : Option Exponent
deriving DecidableEq, Repr

/-- Where an underscore may stand depends on what is before it. -/
inductive SeparatorContext where
  /-- A digit, or the mark of a radix. -/
  | digit
  /-- An underscore. -/
  | separator
  /-- Anything else, or nothing. -/
  | other
deriving DecidableEq, Repr

namespace Number

/-- Walks over the text of a number from `index` on, to the first underscore that does not stand
between two digits. -/
def findMisplaced? (isDigit : Char → Bool) (before : SeparatorContext) (index : Nat) :
    List Char → Option Nat
  | [] => if before = .separator then some (index - 1) else none
  | c :: rest =>
    if c = '_' then
      if before = .digit then findMisplaced? isDigit .separator (index + 1) rest else some index
    else if isDigit c then findMisplaced? isDigit .digit (index + 1) rest
    else if before = .separator then some (index - 1)
    else findMisplaced? isDigit .other (index + 1) rest

/-- Index of the first underscore in the text of a number that does not stand between two digits,
the mark of a radix counting as a digit. -/
def misplacedSeparator? (text : List Char) : Option Nat :=
  match text with
  | '0' :: letter :: rest =>
    match Radix.ofLetter? letter with
    | some radix => findMisplaced? radix.isDigit .digit 2 rest
    | none => findMisplaced? Char.isDigit .other 0 text
  | _ => findMisplaced? Char.isDigit .other 0 text

/-- The radix point and the digits after it. -/
def fractionText (n : Number) : List Char :=
  match n.fraction with
  | some digits => '.' :: digits
  | none => []

/-- The characters before the exponent. -/
def mantissa (n : Number) : List Char :=
  n.lead ++ n.whole ++ n.fractionText

/-- The characters of the number. -/
def text (n : Number) : List Char :=
  n.mantissa ++ (n.exponent.map Exponent.text).getD []

/-- A number with a radix point or an exponent is a float. -/
def kind (n : Number) : Kind :=
  if n.fraction.isSome || n.exponent.isSome then .float else .integer

/-- The digits after the radix point at the start of `source`, if there is a point. -/
def readFraction? (radix : Radix) : List SourceChar → Option (List Char)
  | .valid '.' :: rest => some (radix.run rest)
  | _ => none

/-- The number at the start of `source`, which is a digit, or a radix point where `floats` allows
for points and exponents. -/
def read (floats : Bool) (source : List SourceChar) : Number :=
  let (radix, lead) := Radix.ofLead source
  let whole := radix.run (source.drop lead.length)
  let mantissa : Number := ⟨radix, lead, whole, none, none⟩
  if floats then
    let fraction := readFraction? radix (source.drop mantissa.text.length)
    let mantissa : Number := { mantissa with fraction := fraction }
    { mantissa with exponent := Exponent.read? (source.drop mantissa.text.length) }
  else mantissa

/-- Whether the mantissa has a digit. A leading zero that is not part of a radix mark is one. -/
def hasDigits (n : Number) : Bool :=
  n.radix = .leadingZero || (n.whole ++ n.fraction.getD []).any n.radix.isDigit

/-- A point in an octal or binary number. -/
def pointFaults (n : Number) : List (Nat × Fault) :=
  if n.fraction.isSome && (n.radix = .octal || n.radix = .binary) then
    [((n.lead ++ n.whole).length, .invalidRadixPoint n.radix.numeral)]
  else []

/-- A mantissa without digits. -/
def digitFaults (n : Number) : List (Nat × Fault) :=
  if n.hasDigits then [] else [(n.mantissa.length, .noDigits n.radix.numeral)]

/-- An exponent that the mantissa does not go with, or that lacks digits, and a hexadecimal fraction
that lacks an exponent. -/
def exponentFaults (n : Number) : List (Nat × Fault) :=
  match n.exponent with
  | some e =>
    (if e.isBinary then
      if n.radix = .hexadecimal then []
      else [(n.mantissa.length, .exponentRequiresHex e.marker)]
    else if n.radix = .decimal || n.radix = .leadingZero then []
    else [(n.mantissa.length, .exponentRequiresDecimal e.marker)]) ++
    if e.digits.any Char.isDigit then [] else [(n.text.length, .exponentNoDigits)]
  | none =>
    if n.radix = .hexadecimal && n.fraction.isSome then
      [(n.mantissa.length, .hexMantissaRequiresExponent)]
    else []

/-- The first digit of an integer that is too large for its radix. -/
def rangeFaults (n : Number) : List (Nat × Fault) :=
  if n.kind = .integer then
    match n.whole.zipIdx.find? fun (c, _) => n.radix.exceeds c with
    | some (c, index) => [(n.lead.length + index, .invalidDigit c n.radix.numeral)]
    | none => []
  else []

/-- The first misplaced underscore. -/
def separatorFaults (n : Number) : List (Nat × Fault) :=
  match misplacedSeparator? n.text with
  | some index => [(index, .invalidSeparator)]
  | none => []

/-- Everything that is wrong with a number, each with the index of the character where it shows. -/
def faults (n : Number) : List (Nat × Fault) :=
  n.pointFaults ++ n.digitFaults ++ n.exponentFaults ++ n.rangeFaults ++ n.separatorFaults

end Number

end Lexis
