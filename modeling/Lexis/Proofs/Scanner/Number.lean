import Lexis.Proofs.Lexeme.Form
import Lexis.Proofs.Lexeme.NumberLanguage
import Lexis.Proofs.Scanner.Lexeme
import Lexis.Proofs.Scanner.Reports

/-!
# Numbers that are scanned

What a scanner reports of a number are its faults, each at the character where it shows
(`Scan.IsAt.ownReports_number`). So nothing is reported of a number exactly where it is a literal,
and then it is the longest that stands there (`Source.number_literals`).
-/

namespace Lexis

/-! ## Reports -/

namespace Reading

/-- Of a number that stands there, the faults are reported and nothing else. -/
theorem reports_consumeNumber {r : Reading} {n : Number} (h : Begins n.text r.rest)
    (hcomposed : n.Composed) :
    (r.consumeNumber n).reports.toList =
      r.reports.toList ++
        n.faults.map fun (index, fault) => ⟨r.position.across index, fault⟩ := by
  have hfold : ∀ (faults : List (Nat × Fault)) (after : Reading),
      (faults.foldl (fun after (index, fault) => after.reportAt (r.position.across index) fault)
          after).reports.toList =
        after.reports.toList ++
          faults.map fun (index, fault) => ⟨r.position.across index, fault⟩ := by
    intro faults
    induction faults with
    | nil => simp
    | cons found faults ih =>
      intro after
      rw [List.foldl_cons, ih]
      simp [reportAt]
  -- the characters of a number are plain, so none of them is reported
  have hplain : SourceChar.reportsFrom r.position (r.rest.take n.text.length) = [] := by
    obtain ⟨rest, hrest⟩ := h.isPrefix
    have htake : r.rest.take n.text.length = n.text.map .valid := by
      rw [← hrest, List.take_left' (List.length_map _)]
    rw [htake]
    exact SourceChar.reportsFrom_eq_nil_of_not_mem (fun hnul => hcomposed.ne_nul hnul rfl) _
  rw [consumeNumber, hfold, bumps_reports, hplain, List.append_nil]

end Reading

/-! ## Numbers at their places -/

namespace Scan.IsAt

variable {scan : Scan} {mode : Mode} {cursor : Cursor} {c : SourceChar} {rest : List SourceChar}
  {floats : Bool}

/-- What a scan tells of a number: its text and its kind, and its faults as reports. -/
theorem number (h : scan.IsAt mode cursor c rest)
    (hread : Lexeme.read mode c rest = .number (.read floats (c :: rest))) :
    scan.text = (Number.read floats (c :: rest)).text ∧
      scan.kind = (Number.read floats (c :: rest)).kind ∧
      scan.ownReports = (Number.read floats (c :: rest)).faults.map
        fun (index, fault) => ⟨scan.start.across index, fault⟩ := by
  have hbegins : Begins (Number.read floats (c :: rest)).text (Reading.ofCursor cursor).rest := by
    have hrest : (Reading.ofCursor cursor).rest = c :: rest := h.rest_eq
    rw [hrest]
    exact Number.begins_read floats (c :: rest)
  refine ⟨?_, ?_, ?_⟩
  · rw [h.text_eq, hread, Lexeme.text, Lexeme.chars, plainText_map_valid]
  · rw [h.kind_eq, hread]
    rfl
  · rw [h.ownReports_eq, hread, h.start_eq]
    exact Reading.reports_consumeNumber hbegins (Number.composed_read _ _)

/-- Nothing is reported of a number where it is a literal. -/
theorem language_of_number (h : scan.IsAt mode cursor c rest)
    (hread : Lexeme.read mode c rest = .number (.read floats (c :: rest))) :
    (scan.ownReports = [] ↔ NumberLiteral floats scan.text) ∧
      (scan.ownReports = [] →
        IsLongest (NumberLiteral floats) scan.text (plainText (c :: rest)) ∧
        (scan.kind = .integer ↔ IntLiteral scan.text) ∧
        (floats = true → (scan.kind = .float ↔ FloatLiteral scan.text))) := by
  obtain ⟨htext, hkind, hreports⟩ := h.number hread
  rw [hreports, List.map_eq_nil_iff, htext, hkind]
  exact Number.language_read floats (c :: rest)

end Scan.IsAt

namespace Source

/-- What is scanned where a number may start. With floats, nothing is reported of what starts with a
digit, or with a point and a digit, exactly where it is an integer or a float literal; it is then
the longest such literal that stands there, and its kind tells which it is. With integers alone,
integer literals take the place of both, a point stands for itself, and no number has a point or an
exponent. -/
theorem number_literals (source : Source) (config : Config) (n : Nat) :
    let scan := source.nthScan config n
    (config.mode.has .floats = true →
      ∀ c rest, source.slice? scan.start.offset source.size = some (c :: rest) →
        c.isDigit = true ∨ c = '.' ∧ rest.head?.any Char.isDigit = true →
        (scan.ownReports = [] ↔ IntLiteral scan.text ∨ FloatLiteral scan.text) ∧
        (scan.ownReports = [] →
          IsLongest (fun text => IntLiteral text ∨ FloatLiteral text) scan.text (c :: rest) ∧
          (scan.kind = .integer ↔ IntLiteral scan.text) ∧
          (scan.kind = .float ↔ FloatLiteral scan.text))) ∧
    (config.mode.has .integers = true → config.mode.has .floats = false →
      (∀ c rest, source.slice? scan.start.offset source.size = some (c :: rest) →
        (c.isDigit = true →
          scan.kind = .integer ∧ (scan.ownReports = [] ↔ IntLiteral scan.text) ∧
          (scan.ownReports = [] → IsLongest IntLiteral scan.text (c :: rest))) ∧
        (c = '.' → scan.kind = .rune '.' ∧ scan.text = ['.'])) ∧
      (scan.kind = .integer ∨ scan.kind = .float →
        scan.kind = .integer ∧
        ∀ c ∈ scan.text, c ∉ ['.', 'p', 'P'] ∧
          (c ∈ ['e', 'E'] → ∃ letter rest, (letter = 'x' ∨ letter = 'X') ∧
            scan.text = '0' :: letter :: rest))) := by
  intro scan
  refine ⟨?_, ?_⟩
  · intro hfloats first more hslice hstart
    obtain ⟨place, c, rest, hat, rfl, rfl⟩ := exists_lexeme_of_slice? hslice
    have hread : Lexeme.read config.mode c rest = .number (.read true (c :: rest)) := by
      rcases hstart with hdigit | ⟨hpoint, hnext⟩
      · rw [Lexeme.read_of_isDigit hdigit (by rw [hfloats, Bool.or_true]), hfloats]
      · have hc : c = .valid '.' := Lexeme.eq_valid_of_char_eq hpoint (by decide)
        have hhead : rest.head?.any (·.char.isDigit) = true := by
          cases rest with
          | nil => cases hnext
          | cons d rest => exact hnext
        rw [hc, Lexeme.read_point, hfloats, hhead]
        rfl
    obtain ⟨hiff, hlongest⟩ := hat.language_of_number hread
    have hlanguage : NumberLiteral true = fun text => IntLiteral text ∨ FloatLiteral text := by
      funext text
      simp [NumberLiteral]
    rw [hlanguage] at hiff hlongest
    exact ⟨hiff, fun hnil => ⟨(hlongest hnil).1, (hlongest hnil).2.1, (hlongest hnil).2.2 rfl⟩⟩
  · intro hintegers hfloats
    refine ⟨?_, ?_⟩
    · intro first more hslice
      obtain ⟨place, c, rest, hat, rfl, rfl⟩ := exists_lexeme_of_slice? hslice
      refine ⟨?_, ?_⟩
      · intro hdigit
        have hread := @Lexeme.read_of_isDigit config.mode c rest hdigit (by simp [hintegers])
        rw [hfloats] at hread
        obtain ⟨hiff, hlongest⟩ := hat.language_of_number hread
        have hlanguage : NumberLiteral false = IntLiteral := by
          funext text
          simp [NumberLiteral]
        rw [hlanguage] at hiff hlongest
        exact ⟨(hat.number hread).2.1, hiff, fun hnil => (hlongest hnil).1⟩
      · intro hpoint
        have hc : c = .valid '.' := Lexeme.eq_valid_of_char_eq hpoint (by decide)
        have hread : Lexeme.read config.mode c rest = .single (.valid '.') := by
          rw [hc, Lexeme.read_point, hfloats]
          rfl
        exact ⟨by rw [hat.kind_eq, hread]; rfl, by rw [hat.text_eq, hread]; rfl⟩
    · intro hkind
      have hne : scan.kind ≠ .endOfInput := by
        rcases hkind with h | h <;> rw [h] <;> decide
      obtain ⟨place, c, rest, hat⟩ := source.exists_lexeme config n hne
      have hnumber := hkind
      rw [hat.kind_eq] at hnumber
      have hread := (Lexeme.read_of_kind_number hnumber).1
      rw [hfloats] at hread
      obtain ⟨htext, hkind', -⟩ := hat.number hread
      refine ⟨hkind', ?_⟩
      intro d hd
      rw [htext] at hd ⊢
      exact Number.mem_text_read_false _ hd

/-- A hexadecimal float is one literal. An eight is no octal digit, so behind a leading zero it does
not make one. With integers alone a number ends before the point. -/
theorem number_literals_at_digits :
    (let scan := (Source.ofString "0x1.8p-2").nthScan .full 0
     scan.kind = .float ∧ FloatLiteral scan.text ∧
       IsLongest (fun text => IntLiteral text ∨ FloatLiteral text) scan.text
         ['0', 'x', '1', '.', '8', 'p', '-', '2']) ∧
    (let scan := (Source.ofString "08").nthScan .full 0
     scan.text = ['0', '8'] ∧ ¬ (IntLiteral scan.text ∨ FloatLiteral scan.text)) ∧
    (let scan := (Source.ofString "1.5").nthScan ⟨.ofFeatures [.integers], blanks⟩ 0
     scan.kind = .integer ∧ IsLongest IntLiteral scan.text ['1', '.', '5']) := by
  have hfloat := (number_literals (.ofString "0x1.8p-2") .full 0).1 (by decide) '0'
    ['x', '1', '.', '8', 'p', '-', '2'] (by decide +kernel) (.inl (by decide))
  have hclean : ((Source.ofString "0x1.8p-2").nthScan .full 0).ownReports = [] := by
    decide +kernel
  have hkind : ((Source.ofString "0x1.8p-2").nthScan .full 0).kind = .float := by decide +kernel
  have height := (number_literals (.ofString "08") .full 0).1 (by decide) '0' ['8']
    (by decide +kernel) (.inl (by decide))
  have hreported : ((Source.ofString "08").nthScan .full 0).ownReports ≠ [] := by
    decide +kernel
  have hinteger := ((number_literals (.ofString "1.5") ⟨.ofFeatures [.integers], blanks⟩ 0).2
    (by decide) (by decide)).1 '1' ['.', '5'] (by decide +kernel)
  have hclean' : ((Source.ofString "1.5").nthScan ⟨.ofFeatures [.integers], blanks⟩ 0).ownReports =
      [] := by
    decide +kernel
  obtain ⟨hlongest, -, hiff⟩ := hfloat.2 hclean
  obtain ⟨hkind', -, hlongest'⟩ := hinteger.1 (by decide)
  exact ⟨⟨hkind, hiff.1 hkind, hlongest⟩, ⟨by decide +kernel, mt height.1.2 hreported⟩,
    ⟨hkind', hlongest' hclean'⟩⟩

end Source

end Lexis
