import Lexis.Scanner

/-!
# Scanning step by step

`Scanner.scan` says which lexeme stands at a place and leads over it. A machine would get there in
small steps: it looks at one byte of the padded text or at one character, cuts out a text between
two offsets, and goes round in loops until a byte or a character stops it. Each step can fail, where
an index is out of range, where an offset stands inside a character, where a difference would be
negative, and a loop may never be left.

The definitions of this file take these steps. Their results are optional: `none` is a step that
failed, or a loop that was to go round more often than it was allowed to. How a scan is made of
moves is told for whatever can make the moves (`Stepper`). A `Head` is what knows its place alone
and looks for faults afresh at every move. The files that follow prove that a scan by a head never
comes to `none` where its loops may go round once more than there are characters left, and that its
outcome is then the one of `Scanner.scan`. A `Tracker` knows which faults it has come by, and scans
alike.
-/

namespace Lexis

/-- A place in a source, known by its position alone, and the reports made so far. -/
structure Head where
  source : Source
  position : Position
  reports : Array Report
deriving DecidableEq, Repr

/-! ## Testing a character -/

/-- A difference, where it is not negative. -/
def minus? (a b : Nat) : Option Nat :=
  if b ≤ a then some (a - b) else none

/-- The bit that stands for one of the first 64 characters. A shift can go no further. -/
def characterBit? (c : Char) : Option UInt64 :=
  if c.toNat < 64 then some (characterBit c) else none

/-- Whether a character is skipped between lexemes. -/
def whitespace? (config : Config) (c : Char) : Option Bool := do
  if c.toNat < 64 then return config.whitespace &&& (← characterBit? c) != 0
  else return false

/-- Whether a character is a decimal digit of any script: how far it is from the last zero that does
not come after it tells. -/
def decimalDigit? (c : Char) : Option Bool := do
  if c.isDigit then return true
  if c.val < 128 then return false
  let started := Unicode.partitionPoint Unicode.decimalZeros fun first => first ≤ c.toNat
  if 0 < started then
    let last ← minus? started 1
    let first ← Unicode.decimalZeros[last]?
    let digit ← minus? c.toNat first
    return digit < 10
  else return false

/-- Whether a character goes on with an identifier. -/
def identifierPart? (c : Char) : Option Bool :=
  if c = '_' || Unicode.isAlphabetic c then some true else decimalDigit? c

namespace Head

/-- Reports a fault at a given place. -/
def reportAt (h : Head) (position : Position) (fault : Fault) : Head :=
  { h with reports := h.reports.push ⟨position, fault⟩ }

/-! ## Looking and moving -/

/-- Whether everything has been read. -/
def atEnd (h : Head) : Bool :=
  h.source.size ≤ h.position.offset

/-- The byte at the head. -/
def byte? (h : Head) : Option UInt8 :=
  h.source.padded[h.position.offset]?

/-- The byte at the head as the character of that number, to be compared with ASCII characters. -/
def byteChar? (h : Head) : Option Char :=
  h.byte?.map fun b => Char.ofNat b.toNat

/-- The character at the head, or nothing at the end. A byte that is no character by itself is the
first of one, which is found at the start of the text from there on. -/
def char? (h : Head) : Option (Option Char) := do
  if h.atEnd then return none
  let b ← h.byte?
  if b.toNat < 0x80 then return some (Char.ofNat b.toNat)
  let text ← h.source.slice? h.position.offset h.source.size
  return text.head?

/-- Whether bytes that are no UTF-8 were replaced here. -/
def hasIssue (h : Head) : Bool :=
  h.source.issues.any fun issue =>
    issue.kind == .invalidUtf8 && issue.position == h.position.offset

/-- Reads one character and reports it if it is faulty. At the end nothing happens. -/
def bump? (h : Head) : Option Head := do
  if h.atEnd then return h
  let b ← h.byte?
  let told :=
    if b = 0 then h.reportAt h.position .nulCharacter
    else if h.hasIssue then h.reportAt h.position .invalidUtf8
    else h
  match ← told.char? with
  | some c => return { told with position := told.position.next c }
  | none => return told

/-! ## Going over a stretch at once -/

/-- Index of the last place where a byte stands. -/
def lastIndexOf? (b : UInt8) : List UInt8 → Option Nat
  | [] => none
  | c :: rest =>
    match lastIndexOf? b rest with
    | some index => some (index + 1)
    | none => if c = b then some 0 else none

/-- The position of a byte offset, counted on from a position at or before it. The columns start
anew behind the last line end, where the text is cut once more. -/
def locate? (h : Head) (known : Position) (offset : Nat) : Option Position := do
  let text ← h.source.slice? known.offset offset
  let bytes := Utf8.bytesOf text
  match lastIndexOf? 0x0A bytes with
  | some last =>
    let line ← (Source.ofText text).slice? (last + 1) bytes.length
    return ⟨offset, known.line + bytes.count 0x0A, line.length + 1⟩
  | none => return ⟨offset, known.line, known.column + text.length⟩

/-- Offsets of the places where a byte stands in bytes that start at `offset`. -/
def offsetsOfByte (b : UInt8) (offset : Nat) : List UInt8 → List Nat
  | [] => []
  | c :: rest => (if c = b then [offset] else []) ++ offsetsOfByte b (offset + 1) rest

/-- The faulty characters between the head and an offset: the NULs among the bytes of the text that
stands there, and the issues that the source has there, put in order. -/
def faultsUpTo (h : Head) (stop : Nat) (text : List Char) : List (Nat × Fault) :=
  let nuls := (offsetsOfByte 0 h.position.offset (Utf8.bytesOf text)).map (·, Fault.nulCharacter)
  let issues := h.source.issues.filter fun issue =>
    issue.kind == .invalidUtf8 && h.position.offset ≤ issue.position && issue.position < stop
  let invalid := issues.map fun issue => (issue.position, Fault.invalidUtf8)
  (nuls ++ invalid).mergeSort fun a b => a.1 ≤ b.1

/-- Goes to an offset, or to the end if that comes first, and reports the faulty characters on the
way. -/
def skipTo? (h : Head) (stop : Nat) : Option Head := do
  let last := min stop h.source.size
  let text ← h.source.slice? h.position.offset last
  let reports ← (h.faultsUpTo stop text).mapM fun (offset, fault) =>
    (h.locate? h.position offset).map (Report.mk · fault)
  let told := { h with reports := h.reports ++ reports }
  if last ≤ h.position.offset then return told
  return { told with position := ← h.locate? h.position last }

/-- Offset of the first place at or after the head where bytes stand. -/
def find? (h : Head) (needle : List UInt8) : Option (Option Nat) :=
  if h.position.offset ≤ h.source.size then
    let ahead := (Utf8.bytesOf h.source.text).drop h.position.offset
    some ((Cursor.indexOfBytes? needle ahead).map (h.position.offset + ·))
  else none

end Head

/-! ## What makes moves -/

/-- What moves over a source and reports what it comes by. -/
class Stepper (σ : Type) where
  /-- The place that has been come to, and the reports made so far. -/
  head : σ → Head
  /-- Reports a fault at a given place. -/
  reportAt : σ → Position → Fault → σ
  /-- Reads one character and reports it if it is faulty. At the end nothing happens. -/
  bump? : σ → Option σ
  /-- Goes to an offset, or to the end if that comes first, and reports the faulty characters on the
  way. -/
  skipTo? : σ → Nat → Option σ

instance : Stepper Head where
  head h := h
  reportAt := Head.reportAt
  bump? := Head.bump?
  skipTo? := Head.skipTo?

namespace Head

@[simp]
theorem head_eq (h : Head) : Stepper.head h = h := rfl

@[simp]
theorem reportAt_eq (h : Head) (p : Position) (f : Fault) :
    Stepper.reportAt h p f = h.reportAt p f := rfl

@[simp]
theorem bump?_eq (h : Head) : Stepper.bump? h = h.bump? := rfl

@[simp]
theorem skipTo?_eq (h : Head) (stop : Nat) : Stepper.skipTo? h stop = h.skipTo? stop := rfl

end Head

namespace Stepper

variable {σ : Type} [Stepper σ]

/-- Reports a fault at the place that has been come to. -/
def report (s : σ) (fault : Fault) : σ :=
  reportAt s (head s).position fault

/-- Reads characters as long as they pass a test, in so many rounds at most. -/
def skipWhile? (test : Char → Option Bool) : Nat → σ → Option σ
  | 0, _ => none
  | rounds + 1, s => do
    match ← (head s).char? with
    | some c => if ← test c then skipWhile? test rounds (← bump? s) else return s
    | none => return s

/-- Goes over text up to a mark and over the mark. Without one there is a fault at the end. -/
def enclosed? (mark : List Char) (fault : Fault) (s : σ) : Option σ := do
  let needle := Utf8.bytesOf mark
  match ← (head s).find? needle with
  | some found => skipTo? s (found + needle.length)
  | none => return report (← skipTo? s (head s).source.size) fault

/-- Goes over a comment, from the character after its first slash on. -/
def comment? (s : σ) : Option σ := do
  if (← (head s).byteChar?) = '/' then
    let found ← (head s).find? (Utf8.bytesOf Lexeme.lineEnd)
    skipTo? s (found.getD (head s).source.size)
  else enclosed? Lexeme.blockEnd .commentNotTerminated (← bump? s)

/-! ## Quoted literals -/

/-- Reads the digits of an escape, of which `width` are still to come. -/
def escapeDigits? (isDigit : Char → Bool) : Nat → σ → Option σ
  | 0, s => some s
  | width + 1, s => do
    match ← (head s).char? with
    | some c =>
      if isDigit c then escapeDigits? isDigit width (← bump? s)
      else return report s .invalidEscape
    | none => return report s .invalidEscape

/-- Reads an escape from the character after its backslash on. -/
def escape? (quote : Char) (s : σ) : Option σ := do
  match ← (head s).char? with
  | some c =>
    if c = quote || Escape.isSimple c then bump? s
    else if Text.isOctalDigit c then escapeDigits? Text.isOctalDigit 3 s
    else
      match Escape.hexWidth? c with
      | some width => escapeDigits? Text.isHexDigit width (← bump? s)
      | none => return report s .invalidEscape
  | none => return report s .invalidEscape

/-- Reads the items of a quoted literal and its closing quote, and counts the items from `count`
on. -/
def items? (quote : Char) : Nat → Nat → σ → Option (Nat × σ)
  | 0, _, _ => none
  | rounds + 1, count, s => do
    match ← (head s).char? with
    | some c =>
      if c = quote then return (count, ← bump? s)
      else if c = '\n' then return (count, report s .literalNotTerminated)
      else if c = '\x5c' then items? quote rounds (count + 1) (← escape? quote (← bump? s))
      else items? quote rounds (count + 1) (← bump? s)
    | none => return (count, report s .literalNotTerminated)

/-! ## Numbers -/

/-- What has been seen in runs of digits. -/
structure Seen where
  digit : Bool
  separator : Bool
  /-- The first digit too large for the radix, and its place. -/
  exceeding : Option (Char × Position)
deriving DecidableEq, Repr

/-- Nothing has been seen. -/
def Seen.nothing : Seen := ⟨false, false, none⟩

/-- What has been seen after one more character of a run. -/
def Seen.add (seen : Seen) (radix : Radix) (c : Char) (position : Position) : Seen :=
  if c = '_' then { seen with separator := true }
  else
    { seen with
      digit := true
      exceeding := seen.exceeding.or (if radix.exceeds c then some (c, position) else none) }

/-- Reads a run of digits and underscores. -/
def digits? (radix : Radix) : Nat → Seen → σ → Option (Seen × σ)
  | 0, _, _ => none
  | rounds + 1, seen, s => do
    let c ← (head s).byteChar?
    if radix.accepts c then
      digits? radix rounds (seen.add radix c (head s).position) (← bump? s)
    else return (seen, s)

/-- Reads the mark of a radix. A leading zero that is not part of one is a digit. -/
def lead? (s : σ) : Option (Radix × Seen × σ) := do
  if (← (head s).byteChar?) = '0' then
    let s ← bump? s
    match Radix.ofLetter? (← (head s).byteChar?) with
    | some radix => return (radix, .nothing, ← bump? s)
    | none => return (.leadingZero, ⟨true, false, none⟩, s)
  else return (.decimal, .nothing, s)

/-- Reads a number up to its exponent, and tells whether there was a radix point. -/
def mantissa? (rounds : Nat) (floats : Bool) (s : σ) : Option (Radix × Seen × Bool × σ) := do
  let (radix, seen, s) ← lead? s
  let (seen, s) ← digits? radix rounds seen s
  if (← (head s).byteChar?) = '.' && floats then
    let point := (head s).position
    let s ← bump? s
    let s :=
      if radix = .octal || radix = .binary then reportAt s point (.invalidRadixPoint radix.numeral)
      else s
    let (seen, s) ← digits? radix rounds seen s
    return (radix, seen, true, s)
  else return (radix, seen, false, s)

/-- Reads the digits behind a radix point that a number starts with. -/
def fraction? (rounds : Nat) (s : σ) : Option (Radix × Seen × Bool × σ) := do
  let (seen, s) ← digits? .decimal rounds .nothing s
  return (.decimal, seen, true, s)

/-- Reads a sign, if there is one. -/
def sign? (s : σ) : Option σ := do
  let sign ← (head s).byteChar?
  if sign = '+' || sign = '-' then bump? s else return s

/-- Reads an exponent, and tells whether it has underscores and whether the number is a float. -/
def exponent? (rounds : Nat) (floats : Bool) (radix : Radix) (isFloat : Bool) (s : σ) :
    Option (Bool × Bool × σ) := do
  let marker ← (head s).byteChar?
  if Exponent.isMarker marker && floats then
    let s :=
      if marker = 'p' || marker = 'P' then
        if radix = .hexadecimal then s else report s (.exponentRequiresHex marker)
      else if radix = .decimal || radix = .leadingZero then s
      else report s (.exponentRequiresDecimal marker)
    let s ← bump? s
    let s ← sign? s
    let (seen, s) ← digits? .decimal rounds .nothing s
    return (seen.separator, true, if seen.digit then s else report s .exponentNoDigits)
  else if radix = .hexadecimal && isFloat then
    return (false, isFloat, report s .hexMantissaRequiresExponent)
  else return (false, isFloat, s)

/-- Reports the first digit that is too large. -/
def reportExceeding (radix : Radix) (seen : Seen) (s : σ) : σ :=
  match seen.exceeding with
  | some (c, position) => reportAt s position (.invalidDigit c radix.numeral)
  | none => s

/-- Walks over the bytes of a number from `index` on, to the first underscore that does not stand
between two digits. -/
def findMisplaced? (isDigit : Char → Bool) (bytes : List UInt8) :
    Nat → SeparatorContext → Nat → Option (Option Nat)
  | 0, _, _ => none
  | rounds + 1, before, index => do
    if index < bytes.length then
      let b ← bytes[index]?
      let c := Char.ofNat b.toNat
      if c = '_' then
        if before = .digit then findMisplaced? isDigit bytes rounds .separator (index + 1)
        else return some index
      else if isDigit c then findMisplaced? isDigit bytes rounds .digit (index + 1)
      else if before = .separator then return some (← minus? index 1)
      else findMisplaced? isDigit bytes rounds .other (index + 1)
    else if before = .separator then return some (← minus? bytes.length 1)
    else return none

/-- Index of the first underscore among the bytes of a number that does not stand between two
digits. -/
def misplacedSeparator? (rounds : Nat) (bytes : List UInt8) : Option (Option Nat) := do
  if bytes.length < 2 then findMisplaced? Char.isDigit bytes rounds .other 0
  else if (← bytes[0]?) = 0x30 then
    match Radix.ofLetter? (Char.ofNat (← bytes[1]?).toNat) with
    | some radix => findMisplaced? radix.isDigit bytes rounds .digit 2
    | none => findMisplaced? Char.isDigit bytes rounds .other 0
  else findMisplaced? Char.isDigit bytes rounds .other 0

/-- Reports the first misplaced underscore of a number that starts at a given place, if an
underscore has been seen there. -/
def separators? (rounds : Nat) (start : Position) (seen : Bool) (s : σ) : Option σ := do
  if !seen then return s
  let text ← (head s).source.slice? start.offset (head s).position.offset
  match ← misplacedSeparator? rounds (Utf8.bytesOf text) with
  | some index => return reportAt s (start.across index) .invalidSeparator
  | none => return s

/-- Reads on in a number behind its mantissa. -/
def numberEnd? (rounds : Nat) (floats : Bool) (start : Position) :
    Radix × Seen × Bool × σ → Option (Kind × σ)
  | (radix, seen, isFloat, s) => do
    let s := if seen.digit then s else report s (.noDigits radix.numeral)
    let (separator, isFloat, s) ← exponent? rounds floats radix isFloat s
    let s := if isFloat then s else reportExceeding radix seen s
    let s ← separators? rounds start (seen.separator || separator) s
    return (if isFloat then .float else .integer, s)

/-! ## Lexemes -/

/-- Reads on behind a point: a number that starts there, or nothing more. -/
def point? (mode : Mode) (rounds : Nat) (start : Position) (s : σ) : Option (Option Kind × σ) := do
  let next ← (head s).byteChar?
  if mode.has .floats && next.isDigit then
    let (kind, after) ← numberEnd? rounds true start (← fraction? rounds s)
    return (some kind, after)
  else return (some (.rune '.'), s)

/-- Reads on behind a slash: a comment that starts there, or nothing more. -/
def slash? (mode : Mode) (s : σ) : Option (Option Kind × σ) := do
  let next ← (head s).byteChar?
  if (next = '/' || next = '*') && mode.has .comments then
    let after ← comment? s
    return (if mode.has .skipComments then none else some .comment, after)
  else return (some (.rune '/'), s)

/-- Reads a lexeme, and tells its kind, or nothing where it is to be left out. -/
def lexeme? (mode : Mode) (rounds : Nat) (s : σ) : Option (Option Kind × σ) := do
  let some c ← (head s).char? | return (some .endOfInput, s)
  let after ← bump? s
  if isIdentifierStart c then
    if mode.has .identifiers then
      return (some .identifier, ← skipWhile? identifierPart? rounds after)
    else return (some (.rune c), after)
  else if c.isDigit then
    if mode.has .integers || mode.has .floats then
      let mantissa ← mantissa? rounds (mode.has .floats) s
      let (kind, after) ← numberEnd? rounds (mode.has .floats) (head s).position mantissa
      return (some kind, after)
    else return (some (.rune c), after)
  else if c = '\x22' && mode.has .strings then
    let (_, after) ← items? '\x22' rounds 0 after
    return (some .string, after)
  else if c = '\x27' && mode.has .chars then
    let (count, after) ← items? '\x27' rounds 0 after
    let last := if count = 1 then after else reportAt after (head s).position .illegalCharLiteral
    return (some .char, last)
  else if c = '\x60' && mode.has .rawStrings then
    return (some .rawString, ← enclosed? Lexeme.backtick .literalNotTerminated after)
  else if c = '.' then point? mode rounds (head s).position after
  else if c = '/' then slash? mode after
  else return (some (.rune c), after)

/-- Scans the next lexeme, and tells its kind and its start. -/
def scan? (config : Config) : Nat → σ → Option (Kind × Position × σ)
  | 0, _ => none
  | rounds + 1, s => do
    let before ← skipWhile? (whitespace? config) (rounds + 1) s
    match ← lexeme? config.mode (rounds + 1) before with
    | (none, after) => scan? config rounds after
    | (some kind, after) => return (kind, (head before).position, after)

end Stepper

end Lexis
