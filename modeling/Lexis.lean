import Lexis.Definition
import Lexis.Event
import Lexis.Lexeme.Basic
import Lexis.Lexeme.Found
import Lexis.Lexeme.Reading
import Lexis.Lexer
import Lexis.Reader
import Lexis.Scanner
import Lexis.Source.Cursor
import Lexis.SymbolTable
import Lexis.Text.Digit
import Lexis.Text.Quoted
import Lexis.Token.Failure
import Lexis.Token.Unquote
import Lexis.Unicode.Alphabetic
import Lexis.Unicode.DecimalDigit
import Lexis.Unicode.Unprintable
import Lexis.Proofs.Source.Movement
import Lexis.Proofs.Source.Places
import Lexis.Proofs.Source.Beginning
import Lexis.Proofs.Lexeme.CharacterFault
import Lexis.Proofs.Lexeme.Extent
import Lexis.Proofs.Lexeme.Gap
import Lexis.Proofs.Lexeme.Reports
import Lexis.Proofs.Scanner.Step
import Lexis.Proofs.Scanner.Lexeme
import Lexis.Proofs.Scanner.Tiling
import Lexis.Proofs.Scanner.Reports
import Lexis.Proofs.Source.Utf8
import Lexis.Proofs.Lexer.Tokens
import Lexis.Proofs.Lexer.Accepted
import Lexis.Proofs.Lexer.Lookahead
import Lexis.Proofs.Lexeme.Quoted
import Lexis.Proofs.Scanner.Quoted
import Lexis.Proofs.Token.Denotation
import Lexis.Proofs.Lexer.Apostrophes
import Lexis.Proofs.Lexeme.NumberFaults
import Lexis.Proofs.Lexeme.NumberLiteral
import Lexis.Proofs.Lexeme.NumberParts
import Lexis.Proofs.Lexeme.NumberReading
import Lexis.Proofs.Lexeme.NumberLanguage
import Lexis.Proofs.Scanner.Number
import Lexis.Proofs.Lexeme.Mode
import Lexis.Proofs.Scanner.Comments
import Lexis.Proofs.Scanner.Whole
import Lexis.Proofs.Scanner.LineEnd
import Lexis.Proofs.Scanner.Rescan
import Lexis.Proofs.Lexer.Cooking
import Lexis.Proofs.Token.Spelling
import Lexis.Proofs.Lexer.RoundTrip
import Lexis.Proofs.Stepwise.Basic
import Lexis.Proofs.Source.Bytes
import Lexis.Proofs.Stepwise.Moves
import Lexis.Proofs.Stepwise.Quoted
import Lexis.Proofs.Stepwise.Skips
import Lexis.Proofs.Stepwise.Enclosed
import Lexis.Proofs.Stepwise.Digits
import Lexis.Proofs.Stepwise.Number
import Lexis.Proofs.Stepwise.Scan
import Lexis.Proofs.Stepwise.Machine
import Lexis.Proofs.Lexeme.Ending
import Lexis.Proofs.Source.Relocation
import Lexis.Proofs.Lexeme.Alongside
import Lexis.Proofs.Scanner.Alongside
import Lexis.Proofs.Source.Sequences
import Lexis.Proofs.Source.Chunks
import Lexis.Proofs.Scanner.ByteOrderMark
import Lexis.Proofs.Lexeme.Opening
import Lexis.Proofs.Scanner.Kind
import Lexis.Proofs.Lexeme.Order
import Lexis.Proofs.Lexeme.NumberOrder
import Lexis.Proofs.Lexeme.ReadingOrder
import Lexis.Proofs.Scanner.Order
import Lexis.Proofs.Lexer.Log
import Lexis.Proofs.Lexer.Sink
import Lexis.Proofs.Lexer.Renaming
import Lexis.Proofs.Lexer.Entry
import Lexis.Proofs.Source.Jumps
import Lexis.Proofs.Stepwise.Pending
import Lexis.Proofs.Stepwise.Simulation
import Lexis.Proofs.Stepwise.Tracking
import Lexis.Proofs.Token.Digits
import Lexis.Proofs.Token.Grammar
import Lexis.Proofs.Lexeme.Backslashes
import Lexis.Proofs.Lexeme.Breaks
import Lexis.Proofs.Scanner.QuotedExtent
import Lexis.Proofs.Lexeme.FirstIndex
import Lexis.Proofs.Lexeme.Separators
import Lexis.Proofs.Lexeme.NumberLayout
import Lexis.Proofs.Lexeme.LayoutFaults
import Lexis.Proofs.Scanner.NumberReports
import Lexis.Proofs.Lexeme.Enclosure
import Lexis.Proofs.Scanner.EnclosedExtent
import Lexis.Proofs.Stepwise.Padding
import Lexis.Proofs.SymbolTable
import Lexis.Proofs.Unicode.DecimalDigit
import Lexis.Proofs.Lexeme.Underscores
import Lexis.Proofs.Lexeme.Description
