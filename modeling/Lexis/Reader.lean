/-!
# Readers

A reader hands over the bytes of a source piece by piece, and may know a name for them. How the
bytes are cut into pieces does not matter to `Reader.readToEnd`.
-/

namespace Lexis

/-- Where bytes come from. -/
inductive Origin where
  /-- Bytes in memory. -/
  | memory
  /-- An open file, which does not know its own path. -/
  | file
  | standardInput
  /-- Another origin under a name of its own. -/
  | named (name : String) (inner : Origin)
  /-- Another origin behind a buffer. -/
  | buffered (inner : Origin)
  /-- Another origin on loan. -/
  | borrowed (inner : Origin)
deriving DecidableEq, Repr

namespace Origin

/-- The name that positions are told with, if there is one. -/
def name? : Origin → Option String
  | memory => none
  | file => none
  | standardInput => some "<stdin>"
  | named name _ => some name
  | buffered inner => inner.name?
  | borrowed inner => inner.name?

end Origin

/-- What comes of asking a reader for bytes once. -/
inductive Delivery where
  /-- Some bytes. An empty piece tells that there are no more. -/
  | piece (bytes : List UInt8)
  /-- Nothing this time; asking again may help. -/
  | interrupted
  | failed (reason : String)
deriving DecidableEq, Repr

/-- Something that bytes can be asked of. -/
structure Reader where
  origin : Origin
  /-- The answers to come, in order. After the last of them there are no more bytes. -/
  deliveries : List Delivery
deriving DecidableEq, Repr

namespace Reader

/-- The pieces put together up to the first empty one, or the reason why there is a piece missing.
-/
def gather : List Delivery → Except String (List UInt8)
  | [] => .ok []
  | .piece bytes :: rest => if bytes.isEmpty then .ok [] else (gather rest).map (bytes ++ ·)
  | .interrupted :: rest => gather rest
  | .failed reason :: _ => .error reason

/-- All bytes that the reader has. -/
def readToEnd (r : Reader) : Except String (List UInt8) :=
  gather r.deliveries

/-- The name that positions are told with, or nothing. -/
def name (r : Reader) : String :=
  r.origin.name?.getD ""

/-- Bytes taken by requests of the given sizes, each answered with as much as is left of it, and the
bytes left after them. -/
def takePieces : List Nat → List UInt8 → List (List UInt8) × List UInt8
  | [], bytes => ([], bytes)
  | size :: sizes, bytes =>
    let (pieces, left) := takePieces sizes (bytes.drop size)
    (bytes.take size :: pieces, left)

/-- Bytes cut into pieces of `size` bytes, the last of which may be shorter. -/
def cut (size : Nat) (bytes : List UInt8) : List (List UInt8) :=
  if bytes.isEmpty || size = 0 then []
  else bytes.take size :: cut size (bytes.drop size)
termination_by bytes.length
decreasing_by
  simp_all only [Bool.or_eq_true, List.isEmpty_iff, decide_eq_true_eq, not_or, List.length_drop]
  have := List.length_pos_iff.2 ‹_ ∧ _›.1
  omega

end Reader

end Lexis
