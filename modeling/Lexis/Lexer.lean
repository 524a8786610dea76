import Lexis.Event
import Lexis.Reader
import Lexis.Scanner
import Lexis.Token.Failure

/-!
# Lexers

A lexer turns the lexemes of a source into tokens. It looks one token ahead on request, tells every
position with the name of the source, and gives up at the first failure.
-/

namespace Lexis

/-- The text without its first and last character. -/
def stripDelimiters (text : List Char) : List Char :=
  (text.drop 1).dropLast

/-- Kind and value of the token that a lexeme makes. A literal between apostrophes is read like one
between double quotes; with more than one character in it, it is a string. -/
def cook (kind : Kind) (text : List Char) : Except UnquoteError (Kind × String) :=
  match kind with
  | .char =>
    (unquote ('\x22' :: stripDelimiters text ++ ['\x22'])).map fun value =>
      (if value.length > 1 then .string else .char, value)
  | .string => (unquote text).map fun value => (.string, value)
  | .rawString => .ok (.rawString, String.ofList (stripDelimiters text))
  | kind => .ok (kind, String.ofList text)

/-- The report that a lexer gives up for, if there is one. A literal between apostrophes may hold
any number of characters. -/
def Scan.fatal? (s : Scan) : Option Report :=
  s.reports.find? (·.fault != .illegalCharLiteral)

/-- The positions of the literals between apostrophes that hold more or less than one character. -/
def Scan.tolerated (s : Scan) : List Position :=
  (s.reports.filter (·.fault == .illegalCharLiteral)).map Report.position

namespace Event

/-- A lexer is set up for a source. -/
def lexerCreated (file : String) (size : Nat) (mode : Mode) : Event :=
  ⟨.debug, "creating text scanner lexer",
    [("filename", file), ("len", toString size), ("mode", mode.render)]⟩

/-- A literal between apostrophes is accepted though it does not hold one character. -/
def literalAccepted (p : Position) : Event :=
  ⟨.debug, "accepting multi-character single-quoted literal", positionFields p⟩

/-- A token was made. -/
def tokenMade (t : Token) : Event :=
  ⟨.trace, "token",
    [("kind", Kind.describe t.kind), ("value", t.value),
      ("offset", toString t.place.position.offset)]⟩

end Event

/-- A source that is being turned into tokens. -/
structure Lexer where
  scanner : Scanner
  /-- The name of the source, or nothing. -/
  file : String
  /-- The token that has been looked at and not been taken. -/
  lookahead : Option Token
  /-- The failure that the lexer gave up for. -/
  failure : Option Failure
  /-- What has been told to the log. -/
  log : Array Event
deriving DecidableEq, Repr

namespace Lexer

/-- The lexer for a source of the given name. -/
def ofSource (config : Config) (file : String) (source : Source) : Lexer where
  scanner := .ofSource config source
  file := file
  lookahead := none
  failure := none
  log := #[.lexerCreated file source.size config.mode]

/-- The lexer for a text without a name. -/
def ofString (text : String) : Lexer :=
  ofSource .full "" (.ofString text)

/-- The lexer for bytes without a name. -/
def ofBytes (bytes : List UInt8) : Lexer :=
  ofSource .full "" (.ofBytes bytes)

/-- The lexer for what a reader has. A reader that fails leaves nothing to lex. -/
def ofReader (r : Reader) : Except Failure Lexer :=
  match r.readToEnd with
  | .ok bytes => .ok (ofSource .full r.name (.ofBytes bytes))
  | .error reason => .error ⟨⟨r.name, .start⟩, .read reason⟩

/-- Gives up. -/
def giveUp (l : Lexer) (position : Position) (cause : Cause) : Except Failure Token × Lexer :=
  let failure : Failure := ⟨⟨l.file, position⟩, cause⟩
  (.error failure, { l with failure := some failure })

/-- Scans one lexeme and makes a token of it. -/
def makeToken (l : Lexer) : Except Failure Token × Lexer :=
  match l.failure with
  | some failure => (.error failure, l)
  | none =>
    let (scan, scanner) := l.scanner.scan
    let l := { l with
      scanner := scanner
      log := l.log ++ scan.tolerated.map Event.literalAccepted }
    match scan.fatal? with
    | some report => l.giveUp report.position (.scan report.fault)
    | none =>
      match cook scan.kind scan.text with
      | .error error => l.giveUp scan.start (.unquote error)
      | .ok (kind, value) =>
        let token : Token := ⟨kind.code, value, ⟨l.file, scan.start⟩⟩
        (.ok token, { l with log := l.log.push (.tokenMade token) })

/-- Looks at the next token without taking it. -/
def peek (l : Lexer) : Except Failure Token × Lexer :=
  match l.lookahead with
  | some token => (.ok token, l)
  | none =>
    match l.makeToken with
    | (.ok token, l) => (.ok token, { l with lookahead := some token })
    | (.error failure, l) => (.error failure, l)

/-- Takes the next token. -/
def next (l : Lexer) : Except Failure Token × Lexer :=
  match l.lookahead with
  | some token => (.ok token, { l with lookahead := none })
  | none => l.makeToken

/-! ## How far a lexer gets -/

/-- The characters still to be scanned, and one for a token that has been looked at: a measure that
every token taken makes smaller. -/
def remaining (l : Lexer) : Nat :=
  2 * l.scanner.cursor.rest.length + if l.lookahead.isSome then 1 else 0

/-- Only the end of the input makes a token that tells so. -/
theorem cook_endOfInput (text : List Char) :
    cook .endOfInput text = .ok (.endOfInput, String.ofList text) := rfl

theorem length_rest_makeToken_lt {l l' : Lexer} {token : Token}
    (h : l.makeToken = (.ok token, l')) (ht : token.isEndOfInput = false) :
    l'.lookahead = l.lookahead ∧
      l'.scanner.cursor.rest.length < l.scanner.cursor.rest.length := by
  unfold makeToken at h
  split at h
  · cases h
  have hscan := Scanner.length_scan_rest_lt l.scanner
  generalize l.scanner.scan = scanned at h hscan
  obtain ⟨scan, scanner⟩ := scanned
  dsimp only at h hscan
  split at h
  · cases h
  split at h
  · cases h
  · next kind value hcook =>
    cases h
    refine ⟨rfl, hscan fun hk => ?_⟩
    rw [hk, cook_endOfInput] at hcook
    cases hcook
    simp [Token.isEndOfInput] at ht

/-- Taking a token other than the end of the input gets the lexer ahead. -/
theorem remaining_next_lt {l l' : Lexer} {token : Token} (h : l.next = (.ok token, l'))
    (ht : token.isEndOfInput = false) : l'.remaining < l.remaining := by
  unfold next at h
  split at h
  · next hl =>
    cases h
    simp [remaining, hl]
  · next hl =>
    obtain ⟨hlook, hlt⟩ := length_rest_makeToken_lt h ht
    simp only [remaining, hlook, hl]
    omega

/-- Takes all tokens up to the end of the input, and tells that end too. -/
def consumeAll (l : Lexer) : Except Failure (List Token) × Lexer :=
  match h : l.next with
  | (.error failure, l') => (.error failure, l')
  | (.ok token, l') =>
    if ht : token.isEndOfInput then (.ok [token], l')
    else
      have := remaining_next_lt h (Bool.eq_false_iff.2 ht)
      let (tokens, last) := consumeAll l'
      (tokens.map (token :: ·), last)
termination_by l.remaining

end Lexer

end Lexis
