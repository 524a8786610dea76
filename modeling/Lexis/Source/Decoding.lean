import Lexis.Source.Character

/-!
# Decoding UTF-8

Bytes are decoded without failing: where they are no UTF-8, the longest run of bytes that could
begin a character, or else a single byte, becomes one replacement character. `encode` gives the
bytes back.
-/

namespace Lexis.Utf8

/-- Number of bytes that follow `lead` in a character of several bytes, or zero if no such character
starts with `lead`. -/
def trailing (lead : UInt8) : Nat :=
  if 0xC2 ≤ lead.toNat ∧ lead.toNat ≤ 0xDF then 1
  else if 0xE0 ≤ lead.toNat ∧ lead.toNat ≤ 0xEF then 2
  else if 0xF0 ≤ lead.toNat ∧ lead.toNat ≤ 0xF4 then 3
  else 0

/-- A byte that can stand in any place of a character but the first. -/
def isContinuation (b : UInt8) : Bool :=
  0x80 ≤ b.toNat && b.toNat ≤ 0xBF

/-- Whether `b` can be the second byte after `lead`. Four leads narrow it further, so that nothing
is encoded with more bytes than it needs, no surrogate is encoded and nothing above the last
character. -/
def isSecond (lead b : UInt8) : Bool :=
  isContinuation b &&
    if lead.toNat = 0xE0 then 0xA0 ≤ b.toNat
    else if lead.toNat = 0xED then b.toNat ≤ 0x9F
    else if lead.toNat = 0xF0 then 0x90 ≤ b.toNat
    else if lead.toNat = 0xF4 then b.toNat ≤ 0x8F
    else true

/-- The longest run of bytes after `lead` that can belong to one character with it. -/
def continuationRun (lead : UInt8) (rest : List UInt8) : List UInt8 :=
  match rest.take (trailing lead) with
  | [] => []
  | second :: more => if isSecond lead second then second :: more.takeWhile isContinuation else []

/-- The character whose encoding is `lead` followed by `run`. -/
def assemble (lead : UInt8) (run : List UInt8) : Char :=
  let high := lead.toNat % (if run.length = 1 then 32 else if run.length = 2 then 16 else 8)
  Char.ofNat (run.foldl (fun value b => value * 64 + b.toNat % 64) high)

/-- The first character of bytes that start with `lead`, and how many bytes after `lead` it uses. -/
def decodeOne (lead : UInt8) (rest : List UInt8) : SourceChar × Nat :=
  if lead.toNat < 0x80 then (.valid (Char.ofNat lead.toNat), 0)
  else
    let run := continuationRun lead rest
    if run.length = trailing lead ∧ run ≠ [] then (.valid (assemble lead run), run.length)
    else (.replaced (lead :: run), run.length)

/-- The characters that bytes encode. -/
def decode : List UInt8 → List SourceChar
  | [] => []
  | lead :: rest =>
    let (c, used) := decodeOne lead rest
    c :: decode (rest.drop used)
termination_by bytes => bytes.length
decreasing_by simp only [List.length_drop, List.length_cons]; omega

/-- The bytes that characters were decoded from. -/
def encode (source : List SourceChar) : List UInt8 :=
  source.flatMap SourceChar.bytes

/-- The UTF-8 bytes of characters. -/
def bytesOf (text : List Char) : List UInt8 :=
  text.flatMap String.utf8EncodeChar

end Lexis.Utf8
