import Lexis.Lexeme.Fault
import Lexis.Token.Basic
import Lexis.Token.Unquote

/-!
# Failures

A lexer gives up at the first failure and answers with it from then on.
-/

namespace Lexis

/-- Why a lexer gave up. -/
inductive Cause where
  /-- The source is malformed. -/
  | scan (fault : Fault)
  /-- A quoted literal has no value. -/
  | unquote (error : UnquoteError)
  /-- The source could not be read. -/
  | read (reason : String)
deriving DecidableEq, Repr

namespace Cause

/-- The cause in words. -/
def message : Cause → String
  | scan fault => fault.message
  | unquote error => error.message
  | read reason => "read failed: " ++ reason

end Cause

/-- A place where a lexer gave up, and why. -/
structure Failure where
  place : Place
  cause : Cause
deriving DecidableEq, Repr

namespace Failure

/-- What went wrong, without the place. -/
def message (f : Failure) : String :=
  f.cause.message

/-- Place and message. -/
def render (f : Failure) : String :=
  f.place.render ++ ": " ++ f.message

end Failure

end Lexis
