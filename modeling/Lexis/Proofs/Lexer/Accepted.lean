import Lexis.Proofs.Lexer.Tokens
import Lexis.Proofs.Scanner.Reports
import Lexis.Proofs.Source.Utf8

/-!
# Sources that are accepted

A lexer fails for every character that is faulty wherever it stands, in a literal, between lexemes
or in a comment that is left out. So a source whose tokens can all be taken holds no NUL, and the
bytes that it was read from are UTF-8.
-/

namespace Lexis

/-- A source that gives rise to no report about a character holds what it shows, without a NUL. -/
theorem Source.chars_eq_of_reportsFrom_eq_nil {source : Source}
    (h : SourceChar.reportsFrom source.cursor.position source.cursor.rest = []) :
    source.chars = source.text.map .valid ∧ '\x00' ∉ source.text := by
  have hrest := SourceChar.reportsFrom_eq_nil_iff.1 h
  have hmark : ∀ c ∈ source.mark, c.fault? = none := by
    unfold mark
    split
    · intro c hc
      rw [List.mem_singleton.1 hc]
      rfl
    · intro c hc
      cases hc
  have hall : ∀ c ∈ source.chars, ∃ d, c = .valid d ∧ d ≠ '\x00' := by
    intro c hc
    rw [← SourceChar.fault?_eq_none_iff]
    rw [source.chars_eq, List.mem_append] at hc
    exact hc.elim (hmark c) (hrest c)
  constructor
  · have hself : source.chars.map (SourceChar.valid ∘ SourceChar.char) = source.chars.map id := by
      apply List.map_congr_left
      intro c hc
      obtain ⟨d, rfl, -⟩ := hall c hc
      rfl
    rw [text, plainText, List.map_map, hself, List.map_id]
  · intro hnul
    obtain ⟨c, hc, hchar⟩ := List.mem_map.1 hnul
    obtain ⟨d, rfl, hd⟩ := hall c hc
    exact hd hchar

namespace Lexer

/-- For every source that is read from bytes, the NULs and the bytes that are no UTF-8 are reported,
each once and where it stands, as soon as the scanner has passed it, and if all tokens can be taken
there are none of them. -/
theorem faults_ofBytes (config : Config) (bytes : List UInt8) :
    let source := Source.ofBytes bytes
    (∀ n, ((Recorder.ofSource config source).scans n).FaultsReported source) ∧
      ∀ file tokens, (ofSource config file source).consumeAll.1 = .ok tokens →
        bytes.toByteArray.IsValidUTF8 ∧ 0 ∉ bytes := by
  intro source
  refine ⟨Recorder.faultsReported_scans config source, ?_⟩
  intro file tokens htokens
  -- a report about a character would have made the lexer fail
  have htolerated := fault_eq_of_consumeAll rfl rfl htokens
  have hreports : SourceChar.reportsFrom source.cursor.position source.cursor.rest = [] := by
    show SourceChar.reportsFrom (Scanner.ofSource config source).cursor.position
      (Scanner.ofSource config source).cursor.rest = []
    rw [← Scanner.filter_reports_scanAll, List.filter_eq_nil_iff]
    intro report hreport
    have hfault := htolerated report hreport
    rw [hfault]
    decide
  obtain ⟨hchars, hnul⟩ := Source.chars_eq_of_reportsFrom_eq_nil hreports
  refine ⟨Utf8.isValidUTF8_of_decode hchars, ?_⟩
  intro hzero
  rw [← Utf8.encode_decode bytes] at hzero
  obtain ⟨c, hc, hmem⟩ := List.mem_flatMap.1 hzero
  rw [show Utf8.decode bytes = source.text.map .valid from hchars] at hc
  obtain ⟨d, hd, rfl⟩ := List.mem_map.1 hc
  have hd' := Utf8.eq_nul_of_zero_mem_encodeChar hmem
  subst hd'
  exact hnul hd

/-- An identifier and a line end are accepted. -/
example : (ofSource .full "" (.ofBytes [0x61, 0x0A])).consumeAll.1 =
    .ok [⟨-2, "a", ⟨"", ⟨0, 1, 1⟩⟩⟩, ⟨-1, "", ⟨"", ⟨2, 2, 1⟩⟩⟩] := by
  rw [consumeAll_eq_mapM _ rfl rfl]
  cbv

/-- A NUL is not, though it stands in a comment that is left out. -/
example : (ofSource .full "" (.ofBytes [0x2F, 0x2F, 0x00])).consumeAll.1 =
    .error ⟨⟨"", ⟨2, 1, 3⟩⟩, .scan .nulCharacter⟩ := by
  rw [consumeAll_eq_mapM _ rfl rfl]
  cbv

end Lexer

end Lexis
