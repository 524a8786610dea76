import Lexis.Lexeme.Fault

/-!
# Events

What a scanner or lexer tells the log, as data. Whoever runs it decides what becomes of the events.
-/

namespace Lexis

/-- How much an event matters. -/
inductive Level where
  | trace
  | debug
  | warn
deriving DecidableEq, Repr

namespace Level

/-- How a level is called in a log. -/
def name : Level → String
  | trace => "TRACE"
  | debug => "DEBUG"
  | warn => "WARN"

end Level

/-- One entry of a log. -/
structure Event where
  level : Level
  message : String
  /-- Names and values, in order. -/
  fields : List (String × String)
deriving DecidableEq, Repr

namespace Event

/-- The fields that tell a position. -/
def positionFields (p : Position) : List (String × String) :=
  [("offset", toString p.offset), ("line", toString p.line), ("column", toString p.column)]

/-- The warning that a fault gives rise to where nobody else takes it. -/
def ofReport (r : Report) : Event :=
  ⟨.warn, r.fault.message, positionFields r.position⟩

end Event

end Lexis
