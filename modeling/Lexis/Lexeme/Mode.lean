import Lexis.Text.Quoted

/-!
# What to look for in a source

A mode says which kinds of lexemes are recognised; all else falls apart into single characters. A
configuration adds the set of characters to skip between lexemes.
-/

namespace Lexis

/-- Something that can be switched on or off in a mode. -/
inductive Feature where
  | identifiers
  | integers
  /-- Floating-point numbers, and with them integers. -/
  | floats
  | chars
  | strings
  | rawStrings
  | comments
  /-- Recognised comments are left out. -/
  | skipComments
deriving DecidableEq, Repr

namespace Feature

/-- All features, in order of their bits. -/
def all : List Feature :=
  [identifiers, integers, floats, chars, strings, rawStrings, comments, skipComments]

/-- The bit of a mode that switches a feature on. -/
def bits : Feature → UInt32
  | identifiers => 0x01
  | integers => 0x02
  | floats => 0x04
  | chars => 0x08
  | strings => 0x10
  | rawStrings => 0x20
  | comments => 0x40
  | skipComments => 0x80

/-- How a feature is called in messages. -/
def name : Feature → String
  | identifiers => "IDENTS"
  | integers => "INTS"
  | floats => "FLOATS"
  | chars => "CHARS"
  | strings => "STRINGS"
  | rawStrings => "RAW_STRINGS"
  | comments => "COMMENTS"
  | skipComments => "SKIP_COMMENTS"

end Feature

/-- A set of features. Bits that belong to no feature are kept and have no effect. -/
structure Mode where
  bits : UInt32
deriving DecidableEq, Repr

namespace Mode

/-- Whether a feature is switched on. -/
def has (mode : Mode) (feature : Feature) : Bool :=
  mode.bits &&& feature.bits != 0

/-- The mode that has exactly the given features. -/
def ofFeatures (features : List Feature) : Mode :=
  ⟨features.foldl (fun bits feature => bits ||| feature.bits) 0⟩

/-- Identifiers, numbers and every kind of literal, with comments left out. -/
def full : Mode :=
  ofFeatures [.identifiers, .floats, .chars, .strings, .rawStrings, .comments, .skipComments]

/-- Whether all bits of `other` are set. -/
def contains (mode other : Mode) : Bool :=
  mode.bits &&& other.bits == other.bits

/-- Whether some bit is set in both. -/
def intersects (mode other : Mode) : Bool :=
  mode.bits &&& other.bits != 0

/-- The bits of either. -/
def union (mode other : Mode) : Mode :=
  ⟨mode.bits ||| other.bits⟩

/-- The bits that `other` has not. -/
def difference (mode other : Mode) : Mode :=
  ⟨mode.bits &&& ~~~other.bits⟩

/-- Whether no bit is set. -/
def isEmpty (mode : Mode) : Bool :=
  mode.bits == 0

/-- The names of the features that are on, and what other bits are set. -/
def render (mode : Mode) : String :=
  let named := (Feature.all.filter mode.has).map Feature.name
  let unnamed := mode.difference (ofFeatures Feature.all)
  let number := "0x" ++ String.ofList (Text.hex unnamed.bits.toNat)
  let parts := named ++ if unnamed.isEmpty && !named.isEmpty then [] else [number]
  "ScanMode(" ++ String.intercalate " | " parts ++ ")"

end Mode

/-- The bit that stands for a character in a set of the first 64 characters. -/
def characterBit (c : Char) : UInt64 :=
  1 <<< c.toNat.toUInt64

/-- The set of tab, line feed, carriage return and space. -/
def blanks : UInt64 :=
  ['\t', '\n', '\r', ' '].foldl (fun set c => set ||| characterBit c) 0

/-- How a source is to be read. -/
structure Config where
  mode : Mode
  /-- The characters skipped between lexemes, as a set of bits. -/
  whitespace : UInt64
deriving DecidableEq, Repr

namespace Config

/-- Everything is recognised, comments are left out, and blanks separate lexemes. -/
def full : Config := ⟨Mode.full, blanks⟩

instance : Inhabited Config := ⟨full⟩

/-- Whether `c` is skipped between lexemes. Only the first 64 characters can be. -/
def isWhitespace (config : Config) (c : Char) : Bool :=
  c.toNat < 64 && config.whitespace &&& characterBit c != 0

end Config

end Lexis
