import Lexis.Definition
import Lexis.Proofs.Lexer.Renaming
import Lexis.Proofs.Source.Chunks

/-!
# Ways to a lexer

A lexer is made of a reader, of bytes or of a text. How a reader cuts its bytes into pieces, and how
often it has to be asked again, makes no difference (`Reader.Brings.gather_eq`); a reader that fails
leaves no lexer, however much it has handed over before (`Reader.BreaksOff.gather_eq`). So all ways
lead to the same answers but for the name of the source (`Lexer.ways_agree`).
-/

namespace Lexis

/-! ## Reading to the end -/

/-- The deliveries bring these bytes, in pieces of any sizes, and then there are no more. -/
inductive Reader.Brings : List Delivery → List UInt8 → Prop
  | exhausted : Brings [] []
  | empty {rest : List Delivery} : Brings (.piece [] :: rest) []
  | piece {first bytes : List UInt8} {rest : List Delivery} (hfirst : first ≠ [])
      (hrest : Brings rest bytes) : Brings (.piece first :: rest) (first ++ bytes)
  | interrupted {bytes : List UInt8} {rest : List Delivery} (hrest : Brings rest bytes) :
      Brings (.interrupted :: rest) bytes

/-- The deliveries break off with a failure, behind any number of pieces. -/
inductive Reader.BreaksOff : List Delivery → String → Prop
  | failed {reason : String} {rest : List Delivery} : BreaksOff (.failed reason :: rest) reason
  | piece {first : List UInt8} {reason : String} {rest : List Delivery} (hfirst : first ≠ [])
      (hrest : BreaksOff rest reason) : BreaksOff (.piece first :: rest) reason
  | interrupted {reason : String} {rest : List Delivery} (hrest : BreaksOff rest reason) :
      BreaksOff (.interrupted :: rest) reason

namespace Reader

/-- A piece with something in it is put before what comes after it. -/
theorem gather_piece {first : List UInt8} (hfirst : first ≠ []) (rest : List Delivery) :
    gather (.piece first :: rest) = (gather rest).map (first ++ ·) := by
  rw [gather, if_neg (by simpa using hfirst)]

theorem Brings.gather_eq {deliveries : List Delivery} {bytes : List UInt8}
    (h : Brings deliveries bytes) : gather deliveries = .ok bytes := by
  induction h with
  | exhausted => rfl
  | empty => rfl
  | piece hfirst _ ih =>
    rw [gather_piece hfirst, ih]
    rfl
  | interrupted _ ih => exact ih

theorem BreaksOff.gather_eq {deliveries : List Delivery} {reason : String}
    (h : BreaksOff deliveries reason) : gather deliveries = .error reason := by
  induction h with
  | failed => rfl
  | piece hfirst _ ih =>
    rw [gather_piece hfirst, ih]
    rfl
  | interrupted _ ih => exact ih

/-- A character may be cut in two, and the reader be asked in vain between its halves. -/
example : gather [.piece [0xC3], .interrupted, .piece [0xA9]] = .ok [0xC3, 0xA9] := rfl

/-- Every reader brings its bytes or breaks off. -/
theorem brings_or_breaksOff (deliveries : List Delivery) :
    (∃ bytes, Brings deliveries bytes) ∨ ∃ reason, BreaksOff deliveries reason := by
  induction deliveries with
  | nil => exact .inl ⟨[], .exhausted⟩
  | cons delivery rest ih =>
    cases delivery with
    | piece first =>
      by_cases hfirst : first = []
      · rw [hfirst]
        exact .inl ⟨[], .empty⟩
      · exact ih.imp (fun ⟨bytes, h⟩ => ⟨first ++ bytes, .piece hfirst h⟩)
          fun ⟨reason, h⟩ => ⟨reason, .piece hfirst h⟩
    | interrupted =>
      exact ih.imp (fun ⟨bytes, h⟩ => ⟨bytes, .interrupted h⟩)
        fun ⟨reason, h⟩ => ⟨reason, .interrupted h⟩
    | failed reason => exact .inr ⟨reason, .failed⟩

end Reader

/-! ## Names -/

/-- The first origin is the second behind any number of buffers and loans. -/
inductive Origin.Wraps : Origin → Origin → Prop
  | self {origin : Origin} : Wraps origin origin
  | buffered {outer inner : Origin} (h : Wraps outer inner) : Wraps (.buffered outer) inner
  | borrowed {outer inner : Origin} (h : Wraps outer inner) : Wraps (.borrowed outer) inner

theorem Origin.Wraps.name?_eq {outer inner : Origin} (h : Wraps outer inner) :
    outer.name? = inner.name? := by
  induction h with
  | self => rfl
  | buffered _ ih => exact ih
  | borrowed _ ih => exact ih

/-! ## The same lexer -/

namespace Lexer

/-- All ways to a lexer agree. A reader brings its bytes or breaks off. If it brings them, however
cut into pieces, the lexer made of it is the one for these bytes under the name of the reader, and
answers as lexers without a name do for the bytes, or for the text that they encode, but for the
name. If it breaks off, there is no lexer, however much was brought before, and the failure tells
the reason at the start of the source. A buffer or a loan keeps the name. -/
theorem ways_agree (r : Reader) :
    ((∃ bytes, Reader.Brings r.deliveries bytes) ∨
      ∃ reason, Reader.BreaksOff r.deliveries reason) ∧
    (∀ bytes, Reader.Brings r.deliveries bytes →
      let l := ofSource .full r.name (.ofBytes bytes)
      ofReader r = .ok l ∧ Definition.standard.lex r = .ok l ∧
      ∀ requests,
        l.answers requests = ((ofBytes bytes).answers requests).map (Answer.inFile r.name) ∧
        ∀ text : String, text.toUTF8.data.toList = bytes →
          l.answers requests = ((ofString text).answers requests).map (Answer.inFile r.name)) ∧
    (∀ reason, Reader.BreaksOff r.deliveries reason →
      let failure : Failure := ⟨⟨r.name, ⟨0, 1, 1⟩⟩, .read reason⟩
      ofReader r = .error failure ∧ Definition.standard.lex r = .error failure) ∧
    (∀ origin, r.origin.Wraps origin → r.name = origin.name?.getD "") ∧
    ∀ name inner, r.origin.Wraps (.named name inner) → r.name = name := by
  have hname (origin : Origin) (h : r.origin.Wraps origin) : r.name = origin.name?.getD "" := by
    rw [Reader.name, h.name?_eq]
  refine ⟨Reader.brings_or_breaksOff _, ?_, ?_, hname, fun name inner h => hname _ h⟩
  · intro bytes hbytes l
    have hread : ofReader r = .ok l := by
      rw [ofReader, Reader.readToEnd, hbytes.gather_eq]
    refine ⟨hread, hread, ?_⟩
    intro requests
    refine ⟨(Renamed.ofSource .full (.ofBytes bytes) "" r.name).answers requests, ?_⟩
    intro text htext
    have hsource : Source.ofBytes bytes = .ofString text := by
      rw [← htext]
      exact congrArg Source.mk (Utf8.decode_toUTF8 text)
    have hrenamed := Renamed.ofSource .full (.ofString text) "" r.name
    rw [← hsource] at hrenamed
    rw [ofString, ← hsource]
    exact hrenamed.answers requests
  · intro reason hreason failure
    have hread : ofReader r = .error failure := by
      rw [ofReader, Reader.readToEnd, hreason.gather_eq]
      rfl
    exact ⟨hread, hread⟩

end Lexer

end Lexis
