import Lexis.Proofs.Lexeme.Mode
import Lexis.Proofs.Lexeme.Reports
import Lexis.Proofs.Scanner.Step

/-!
# Comments kept and comments left out

A scanner that leaves comments out goes on looking behind each of them, where one that keeps them
stops. So a single scan of the one takes as many scans of the other as there are comments before the
lexeme, and one more. Over a whole source both come to the same end: the one tells what the other
tells without the comments, and both report the same (`Scanner.scanAll_skipComments`).
-/

namespace Lexis

/-- What a scan tells, its reports aside: the kind and the text of the lexeme, where it starts and
where it ends. -/
def Scan.told (scan : Scan) : Kind × List Char × Position × Position :=
  (scan.kind, scan.text, scan.start, scan.stop)

/-- The scan with reports that were made before. -/
def Scan.behind (reports : List Report) (scan : Scan) : Scan :=
  { scan with reports := reports ++ scan.reports }

/-- The two configurations differ in what becomes of comments: `keeping` makes lexemes of them, and
`leavingOut` passes over them. -/
structure Config.DifferInComments (keeping leavingOut : Config) : Prop where
  isWhitespace_eq : ∀ c, leavingOut.isWhitespace c = keeping.isWhitespace c
  has_eq : ∀ f, f ≠ .skipComments → leavingOut.mode.has f = keeping.mode.has f
  keeps : keeping.mode.has .skipComments = false
  leaves : leavingOut.mode.has .skipComments = true

namespace Config

variable {keeping leavingOut : Config}

/-- The mode that both have in common, once without and once with the feature. -/
theorem differInComments (mode : Mode) (whitespace : UInt64) :
    DifferInComments ⟨mode.difference (.ofFeatures [.skipComments]), whitespace⟩
      ⟨mode.union (.ofFeatures [.skipComments]), whitespace⟩ where
  isWhitespace_eq := fun _ => rfl
  has_eq := by
    intro f hf
    rw [Mode.has_union, Mode.has_difference, decide_eq_false hf, decide_eq_true hf, Bool.or_false,
      Bool.and_true]
  keeps := by simp [Mode.has_difference]
  leaves := by simp [Mode.has_union]

namespace DifferInComments

theorem read_eq (h : keeping.DifferInComments leavingOut) (c : SourceChar)
    (rest : List SourceChar) :
    Lexeme.read leavingOut.mode c rest = Lexeme.read keeping.mode c rest :=
  Lexeme.read_congr h.has_eq c rest

theorem skipWhitespace_eq (h : keeping.DifferInComments leavingOut) (r : Reading) :
    r.skipWhitespace leavingOut = r.skipWhitespace keeping := by
  simp only [Reading.skipWhitespace, h.isWhitespace_eq]

end DifferInComments

end Config

/-! ## The next lexeme -/

namespace Reading

variable {keeping leavingOut : Config}

/-- Where comments are kept, the next lexeme is what stands behind the whitespace. -/
theorem next_of_keeping {config : Config} (hkeeps : config.mode.has .skipComments = false)
    {r : Reading} {c : SourceChar} {more : List SourceChar}
    (hrest : (r.skipWhitespace config).rest = c :: more) :
    r.next config = ⟨some (.read config.mode c more), r.skipWhitespace config,
      (r.skipWhitespace config).consume (.read config.mode c more)⟩ := by
  rw [next_of_skipWhitespace_rest_eq_cons config hrest]
  dsimp only
  rw [hkeeps, Bool.and_false, if_neg Bool.false_ne_true]

/-- Where comments are left out, one goes on behind a comment that would be kept. -/
theorem next_leavingOut (h : keeping.DifferInComments leavingOut) (r : Reading) :
    r.next leavingOut =
      if (r.next keeping).kind = .comment then (r.next keeping).after.next leavingOut
      else r.next keeping := by
  have hskip := h.skipWhitespace_eq r
  cases hrest : (r.skipWhitespace keeping).rest with
  | nil =>
    rw [next_of_skipWhitespace_rest_eq_nil keeping hrest, if_neg (by exact Kind.noConfusion),
      next_of_skipWhitespace_rest_eq_nil leavingOut (by rw [hskip, hrest]), hskip]
  | cons c more =>
    have hkeeping := next_of_keeping h.keeps hrest
    have hleaving := next_of_skipWhitespace_rest_eq_cons leavingOut (r := r) (by rw [hskip, hrest])
    dsimp only at hleaving
    rw [hskip, h.read_eq, h.leaves, Bool.and_true] at hleaving
    have hkind : (r.next keeping).kind = (Lexeme.read keeping.mode c more).kind := by
      rw [hkeeping]
      rfl
    rw [hleaving]
    by_cases hcomment : (Lexeme.read keeping.mode c more).kind = .comment
    · rw [if_pos ((Lexeme.isComment_iff _).2 hcomment), if_pos (hkind.trans hcomment), hkeeping]
    · rw [if_neg (mt (Lexeme.isComment_iff _).1 hcomment), if_neg (by rwa [hkind]), hkeeping]

/-- The reading with reports that were made before. -/
def behind (reports : Array Report) (r : Reading) : Reading :=
  { r with reports := reports ++ r.reports }

/-- A reading starts where it has come to, and then has what it has reported behind it. -/
theorem behind_ofCursor (r : Reading) : (ofCursor r.cursor).behind r.reports = r := by
  simp [behind, ofCursor]

theorem Appends.behind {f : Reading → Reading} (h : Appends f) (reports : Array Report)
    (r : Reading) : f (r.behind reports) = (f r).behind reports := by
  show f ⟨r.cursor, reports ++ r.reports⟩ = Reading.behind reports (f ⟨r.cursor, r.reports⟩)
  rw [h, h r.cursor r.reports, Array.append_assoc]
  rfl

theorem skipWhitespace_behind (config : Config) (reports : Array Report) (r : Reading) :
    (r.behind reports).skipWhitespace config = (r.skipWhitespace config).behind reports :=
  (Appends.bumps _).behind reports r

/-- Which lexeme comes next does not depend on the reports that were made before. -/
theorem next_behind (config : Config) (reports : Array Report) (r : Reading) :
    (r.behind reports).next config = ⟨(r.next config).lexeme?,
      (r.next config).before.behind reports, (r.next config).after.behind reports⟩ := by
  have hskip := skipWhitespace_behind config reports r
  fun_induction next config r with
  | case1 r before hend =>
    rw [next_of_skipWhitespace_rest_eq_nil config (by rw [hskip]; exact hend), hskip]
  | case2 r before c rest hrest lexeme after hlt hleft ih =>
    rw [next_of_skipWhitespace_rest_eq_cons config (by rw [hskip]; exact hrest), hskip]
    dsimp only
    rw [if_pos hleft, (Appends.consume _).behind]
    exact ih (skipWhitespace_behind config reports after)
  | case3 r before c rest hrest lexeme after hlt hfound =>
    rw [next_of_skipWhitespace_rest_eq_cons config (by rw [hskip]; exact hrest), hskip]
    dsimp only
    rw [if_neg hfound, (Appends.consume _).behind]

end Reading

/-! ## One scan -/

namespace Scanner

variable {s t : Scanner}

/-- Where a scan that keeps comments finds none, a scan that leaves them out does the same. -/
theorem scan_leavingOut_of_ne (h : s.config.DifferInComments t.config)
    (hcursor : t.cursor = s.cursor) (hkind : s.scan.1.kind ≠ .comment) :
    t.scan.1 = s.scan.1 ∧ t.scan.2.cursor = s.scan.2.cursor := by
  have hnext : (Reading.ofCursor t.cursor).next t.config =
      (Reading.ofCursor s.cursor).next s.config := by
    rw [hcursor, Reading.next_leavingOut h]
    exact if_neg hkind
  unfold scan
  rw [hnext]
  exact ⟨rfl, rfl⟩

/-- Where a scan that keeps comments finds one, a scan that leaves them out goes on from behind it,
and what was reported up to there comes first. -/
theorem scan_leavingOut_of_eq (h : s.config.DifferInComments t.config)
    (hcursor : t.cursor = s.cursor) (hkind : s.scan.1.kind = .comment) :
    t.scan.1 = ({ t with cursor := s.scan.2.cursor } : Scanner).scan.1.behind s.scan.1.reports ∧
      t.scan.2.cursor = ({ t with cursor := s.scan.2.cursor } : Scanner).scan.2.cursor := by
  have hnext : (Reading.ofCursor t.cursor).next t.config =
      ((Reading.ofCursor s.cursor).next s.config).after.next t.config := by
    rw [hcursor, Reading.next_leavingOut h]
    exact if_pos hkind
  have hafter : ((Reading.ofCursor s.cursor).next s.config).after =
      (Reading.ofCursor s.scan.2.cursor).behind
        ((Reading.ofCursor s.cursor).next s.config).after.reports := by
    exact (Reading.behind_ofCursor _).symm
  rw [hafter, Reading.next_behind] at hnext
  refine ⟨?_, ?_⟩
  · rw [scan, hnext]
    simp only [Reading.behind, Array.toList_append]
    rfl
  · rw [scan, hnext]
    rfl

/-! ## Whole sources -/

/-- What is scanned depends on the configuration and on the place, and on nothing else. -/
theorem scanAll_congr (hconfig : t.config = s.config) (hcursor : t.cursor = s.cursor) :
    t.scanAll.1 = s.scanAll.1 := by
  have hscan {s t : Scanner} (hconfig : t.config = s.config) (hcursor : t.cursor = s.cursor) :
      t.scan.1 = s.scan.1 ∧ t.scan.2.cursor = s.scan.2.cursor := by
    unfold scan
    rw [hconfig, hcursor]
    exact ⟨rfl, rfl⟩
  induction s using run_induction generalizing t with
  | endOfInput s hend =>
    obtain ⟨htold, -⟩ := hscan hconfig hcursor
    rw [scanAll_of_endOfInput hend, scanAll_of_endOfInput (by rw [htold, hend]), htold]
  | lexeme s hlexeme ih =>
    obtain ⟨htold, hafter⟩ := hscan hconfig hcursor
    rw [scanAll_of_lexeme hlexeme, scanAll_of_lexeme (by rw [htold]; exact hlexeme), htold,
      ih (t := t.scan.2) hconfig hafter]

/-- Scans that differ in nothing but what was reported before give rise to runs that do so too. -/
theorem exists_scanAll_behind {reports : List Report} (hconfig : t.config = s.config)
    (hscan : t.scan.1 = s.scan.1.behind reports) (hcursor : t.scan.2.cursor = s.scan.2.cursor) :
    ∃ later, s.scanAll.1 = s.scan.1 :: later ∧
      t.scanAll.1 = s.scan.1.behind reports :: later := by
  have hkind : t.scan.1.kind = s.scan.1.kind := by
    rw [hscan]
    rfl
  by_cases hend : s.scan.1.kind = .endOfInput
  · refine ⟨[], ?_, ?_⟩
    · rw [scanAll_of_endOfInput hend]
    · rw [scanAll_of_endOfInput (by rw [hkind, hend]), hscan]
  · refine ⟨s.scan.2.scanAll.1, ?_, ?_⟩
    · rw [scanAll_of_lexeme hend]
    · rw [scanAll_of_lexeme (by rw [hkind]; exact hend), hscan,
        scanAll_congr (s := s.scan.2) (t := t.scan.2) hconfig hcursor]

/-- From one place, a scanner that leaves comments out tells what one that keeps them tells without
the comments, and reports the same. -/
theorem scanAll_leavingOut (h : s.config.DifferInComments t.config) (hcursor : t.cursor = s.cursor) :
    t.scanAll.1.map Scan.told = (s.scanAll.1.filter (·.kind ≠ .comment)).map Scan.told ∧
      t.scanAll.1.flatMap Scan.reports = s.scanAll.1.flatMap Scan.reports := by
  induction s using run_induction generalizing t with
  | endOfInput s hend =>
    have hkind : s.scan.1.kind ≠ .comment := by
      rw [hend]
      exact Kind.noConfusion
    obtain ⟨hscan, -⟩ := scan_leavingOut_of_ne h hcursor hkind
    rw [scanAll_of_endOfInput hend, scanAll_of_endOfInput (by rw [hscan, hend]), hscan]
    simp [hkind]
  | lexeme s hlexeme ih =>
    by_cases hkind : s.scan.1.kind = .comment
    -- the other scanner stands still while this one tells a comment
    · obtain ⟨hscan, hafter⟩ := scan_leavingOut_of_eq h hcursor hkind
      obtain ⟨htold, hreports⟩ := ih (t := { t with cursor := s.scan.2.cursor }) h rfl
      obtain ⟨later, hlater, hbehind⟩ := exists_scanAll_behind (by rfl) hscan hafter
      rw [hlater] at htold hreports
      rw [scanAll_of_lexeme hlexeme, hbehind]
      refine ⟨?_, ?_⟩
      · simpa [hkind, Scan.told, Scan.behind] using htold
      · simpa [Scan.behind] using hreports
    · obtain ⟨hscan, hafter⟩ := scan_leavingOut_of_ne h hcursor hkind
      obtain ⟨htold, hreports⟩ := ih (t := t.scan.2) h hafter
      rw [scanAll_of_lexeme hlexeme, scanAll_of_lexeme (by rw [hscan]; exact hlexeme), hscan]
      refine ⟨?_, ?_⟩
      · simpa [hkind] using htold
      · simpa using hreports

/-- Leaving comments out is the same as keeping them and dropping them afterwards. -/
theorem scanAll_skipComments (source : Source) (mode : Mode) (whitespace : UInt64) :
    let keeping := ofSource ⟨mode.difference (.ofFeatures [.skipComments]), whitespace⟩ source
    let leavingOut := ofSource ⟨mode.union (.ofFeatures [.skipComments]), whitespace⟩ source
    leavingOut.scanAll.1.map Scan.told =
        (keeping.scanAll.1.filter (·.kind ≠ .comment)).map Scan.told ∧
      leavingOut.scanAll.1.flatMap Scan.reports = keeping.scanAll.1.flatMap Scan.reports :=
  scanAll_leavingOut (Config.differInComments mode whitespace) rfl

end Scanner

end Lexis
