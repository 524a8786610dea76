import Lexis.Source.Position
import Lexis.Text.Quoted

/-!
# What can be wrong with a lexeme

Reading goes on after a fault. Each one is reported with the position where it shows.
-/

namespace Lexis

/-- The way a number is written, for messages. -/
inductive Numeral where
  | decimal
  | hexadecimal
  | octal
  | binary
deriving DecidableEq, Repr

namespace Numeral

/-- How a number written so is called. -/
def name : Numeral → String
  | decimal => "decimal literal"
  | hexadecimal => "hexadecimal literal"
  | octal => "octal literal"
  | binary => "binary literal"

end Numeral

/-- Something that is wrong in a source. -/
inductive Fault where
  /-- A literal runs into the end of its line or of the input. -/
  | literalNotTerminated
  /-- A block comment runs into the end of the input. -/
  | commentNotTerminated
  /-- An escape that is unknown, or lacks digits. -/
  | invalidEscape
  /-- A literal between apostrophes that does not hold exactly one character. -/
  | illegalCharLiteral
  | invalidDigit (digit : Char) (numeral : Numeral)
  | noDigits (numeral : Numeral)
  | exponentNoDigits
  | invalidRadixPoint (numeral : Numeral)
  | exponentRequiresDecimal (marker : Char)
  | exponentRequiresHex (marker : Char)
  | hexMantissaRequiresExponent
  /-- An underscore that does not stand between two digits. -/
  | invalidSeparator
  | nulCharacter
  | invalidUtf8
deriving DecidableEq, Repr

namespace Fault

/-- The fault in words. -/
def message : Fault → String
  | literalNotTerminated => "literal not terminated"
  | commentNotTerminated => "comment not terminated"
  | invalidEscape => "invalid char escape"
  | illegalCharLiteral => "illegal char literal"
  | invalidDigit digit numeral =>
    "invalid digit " ++ Text.singleQuoted digit ++ " in " ++ numeral.name
  | noDigits numeral => numeral.name ++ " has no digits"
  | exponentNoDigits => "exponent has no digits"
  | invalidRadixPoint numeral => "invalid radix point in " ++ numeral.name
  | exponentRequiresDecimal marker =>
    Text.singleQuoted marker ++ " exponent requires decimal mantissa"
  | exponentRequiresHex marker =>
    Text.singleQuoted marker ++ " exponent requires hexadecimal mantissa"
  | hexMantissaRequiresExponent => "hexadecimal mantissa requires a 'p' exponent"
  | invalidSeparator => "'_' must separate successive digits"
  | nulCharacter => "invalid character NUL"
  | invalidUtf8 => "invalid UTF-8 encoding"

end Fault

/-- A fault and where it shows. -/
structure Report where
  position : Position
  fault : Fault
deriving DecidableEq, Repr

namespace Report

/-- Line, column and message. -/
def render (r : Report) : String :=
  r.position.render ++ ": " ++ r.fault.message

end Report

end Lexis
