import Lexis.Proofs.Lexeme.Gap

/-!
# What a lexeme reports

What reading does depends on where the cursor stands and not on the reports that were made before:
new ones are added to them (`Reading.Appends`). So a lexeme has reports of its own, those that are
made when it is read at a cursor (`Lexeme.reportsAt`). Whatever stands before a lexeme is read
character by character, comments not excepted, and gives rise to reports about characters only
(`Reading.exists_lexeme`).
-/

namespace Lexis

namespace Reading

/-- `f` does not look at the reports that were made before, and adds its own to them. -/
def Appends (f : Reading → Reading) : Prop :=
  ∀ (c : Cursor) (reports : Array Report),
    f ⟨c, reports⟩ = ⟨(f (.ofCursor c)).cursor, reports ++ (f (.ofCursor c)).reports⟩

namespace Appends

variable {f g : Reading → Reading}

theorem cursor_eq (h : Appends f) (r : Reading) :
    (f r).cursor = (f (.ofCursor r.cursor)).cursor := by
  show (f ⟨r.cursor, r.reports⟩).cursor = _
  rw [h]

theorem reports_eq (h : Appends f) (r : Reading) :
    (f r).reports.toList = r.reports.toList ++ (f (.ofCursor r.cursor)).reports.toList := by
  show (f ⟨r.cursor, r.reports⟩).reports.toList = _
  rw [h, Array.toList_append]

/-- One after the other. -/
theorem comp (hf : Appends f) (hg : Appends g) : Appends fun r => g (f r) := by
  intro c reports
  have hboth := hg (f (.ofCursor c)).cursor (f (.ofCursor c)).reports
  show g (f ⟨c, reports⟩) = _
  rw [hf c reports, hg]
  show _ = (⟨(g (f (.ofCursor c))).cursor, reports ++ (g (f (.ofCursor c))).reports⟩ : Reading)
  rw [hboth, Array.append_assoc]

/-- A report at a place that the cursor tells at the start. -/
theorem reportAt (hf : Appends f) (place : Cursor → Position) (fault : Fault) :
    Appends fun r => (f r).reportAt (place r.cursor) fault := by
  intro c reports
  show (f ⟨c, reports⟩).reportAt _ _ = _
  rw [hf c reports]
  simp only [Reading.reportAt, Reading.ofCursor, Array.push_eq_append, Array.append_assoc]

theorem id : Appends fun r => r := by
  intro c reports
  simp [Reading.ofCursor]

theorem report (fault : Fault) : Appends fun r => r.report fault :=
  id.reportAt Cursor.position fault

theorem bump : Appends Reading.bump := by
  intro c reports
  have hrest : ∀ reports, (⟨c, reports⟩ : Reading).rest = c.rest := fun _ => rfl
  unfold Reading.bump Reading.ofCursor
  simp only [hrest]
  cases c.rest.head?.bind SourceChar.fault? with
  | none => simp
  | some fault => simp [Reading.report, Reading.reportAt]

theorem bumps (n : Nat) : Appends fun r => r.bumps n := by
  induction n with
  | zero => exact id
  | succ n ih => exact bump.comp ih

theorem skip (n : Nat) : Appends fun r => r.skip n := by
  simp only [skip_eq_bumps]
  exact bumps n

/-- A choice that is made beforehand. -/
theorem ite (hf : Appends f) (hg : Appends g) (holds : Prop) [Decidable holds] :
    Appends fun r => if holds then f r else g r := by
  split
  · exact hf
  · exact hg

theorem consumeItem (item : QuotedItem) : Appends fun r => r.consumeItem item := by
  cases item with
  | plain c => exact bump
  | escape e =>
    have hbody : Appends fun r => r.bump.bumps e.body.length := bump.comp (bumps _)
    exact ite hbody (hbody.comp (report .invalidEscape)) (e.complete = true)

theorem foldl_consumeItem (items : List QuotedItem) (hf : Appends f) :
    Appends fun r => items.foldl Reading.consumeItem (f r) := by
  induction items generalizing f with
  | nil => exact hf
  | cons item items ih => exact ih (hf.comp (consumeItem item))

theorem consumeQuoted (q : Quoted) : Appends fun r => r.consumeQuoted q := by
  have hitems := foldl_consumeItem q.items bump
  exact ite (hitems.comp bump) (hitems.comp (report .literalNotTerminated)) (q.closed = true)

theorem consumeEnclosed (mark : List Char) (fault : Fault) (e : Enclosed) :
    Appends fun r => r.consumeEnclosed mark fault e := by
  have hskip := skip (e.charsThrough mark).length
  exact ite hskip (hskip.comp (report fault)) (e.closed = true)

theorem consumeNumber (n : Number) : Appends fun r => r.consumeNumber n := by
  -- the number is read first, and its faults are reported at places counted from its start
  have hfold : ∀ (faults : List (Nat × Fault)) (f : Reading → Reading), Appends f →
      Appends fun r => faults.foldl
        (fun after found => after.reportAt (r.position.across found.1) found.2) (f r) := by
    intro faults
    induction faults with
    | nil => exact fun f hf => hf
    | cons found faults ih =>
      intro f hf
      exact ih _ (hf.reportAt (fun c => c.position.across found.1) found.2)
  exact hfold n.faults _ (bumps _)

/-- Reading a lexeme adds its reports to those that are there. -/
theorem consume (l : Lexeme) : Appends fun r => r.consume l := by
  cases l with
  | identifier chars => exact bumps _
  | number n => exact consumeNumber n
  | string q => exact consumeQuoted q
  | char q =>
    have hquoted := consumeQuoted q
    exact ite hquoted (hquoted.reportAt Cursor.position .illegalCharLiteral) (q.items.length = 1)
  | rawString e => exact bump.comp (consumeEnclosed Lexeme.backtick .literalNotTerminated e)
  | lineComment e => exact bump.comp (skip e.body.length)
  | blockComment e =>
    exact bump.comp (bump.comp (consumeEnclosed Lexeme.blockEnd .commentNotTerminated e))
  | single c => exact bump

end Appends

end Reading

/-! ## The reports of a lexeme -/

/-- What is reported when the lexeme is read at a cursor. -/
def Lexeme.reportsAt (l : Lexeme) (c : Cursor) : List Report :=
  ((Reading.ofCursor c).consume l).reports.toList

/-- Whether what stands at a place is passed over when the next lexeme is looked for: whitespace, or
a comment that is left out. -/
def Config.passesOver (config : Config) (c : SourceChar) (rest : List SourceChar) : Bool :=
  config.isWhitespace c.char ||
    (Lexeme.read config.mode c rest).isComment && config.mode.has .skipComments

namespace Reading

theorem reports_consume (r : Reading) (l : Lexeme) :
    (r.consume l).reports.toList = r.reports.toList ++ l.reportsAt r.cursor :=
  (Appends.consume l).reports_eq r

/-- The reports of a lexeme are made at places within it. -/
theorem places_of_reportsAt (mode : Mode) {cursor : Cursor} {c : SourceChar}
    {rest : List SourceChar} (h : cursor.rest = c :: rest) {report : Report}
    (hreport : report ∈ (Lexeme.read mode c rest).reportsAt cursor) :
    ∃ k ≤ (Lexeme.read mode c rest).chars.length,
      report.position = (cursor.advance k).position := by
  obtain ⟨made, hmade, hplaces, -⟩ :=
    (passage_consume_read mode (r := .ofCursor cursor) h).reports_eq
  have heq : (Lexeme.read mode c rest).reportsAt cursor = made := hmade
  rw [heq] at hreport
  exact hplaces report hreport

/-- Text that no mark ends is reported. -/
theorem closed_of_consumeEnclosed {r : Reading} {mark : List Char} {fault : Fault} {e : Enclosed}
    (h : ∀ report ∈ (r.consumeEnclosed mark fault e).reports.toList, report.fault ≠ fault) :
    e.closed = true := by
  by_contra hopen
  refine h ⟨(r.skip (e.charsThrough mark).length).position, fault⟩ ?_ rfl
  simp [consumeEnclosed, hopen, report, reportAt]

/-! ## Up to the next lexeme -/

theorem bumps_bumps (r : Reading) (m n : Nat) : (r.bumps m).bumps n = r.bumps (m + n) := by
  induction m generalizing r with
  | zero => rw [bumps, Nat.zero_add]
  | succ m ih => rw [bumps, ih, Nat.succ_add, bumps]

/-- A comment is read character by character, unless it is not closed and runs up to the end of the
input. -/
theorem consume_comment {mode : Mode} {r : Reading} {c : SourceChar} {rest : List SourceChar}
    (hrest : r.rest = c :: rest) (hcomment : (Lexeme.read mode c rest).isComment = true) :
    r.consume (.read mode c rest) = r.bumps (Lexeme.read mode c rest).chars.length ∨
      (r.consume (.read mode c rest)).rest = [] := by
  obtain ⟨-, -, ⟨more, -, hread⟩ | ⟨more, hmore, hread⟩⟩ := Lexeme.read_of_isComment hcomment
  · left
    rw [hread]
    simp only [consume, Lexeme.chars, List.length_cons]
    rw [skip_eq_bumps, bumps]
  · rw [hread]
    cases hclosed : (Enclosed.read Lexeme.blockEnd more).closed with
    | true =>
      left
      simp only [consume, consumeEnclosed, hclosed, if_true, Lexeme.chars, List.length_cons]
      rw [skip_eq_bumps, bumps, bumps]
    | false =>
      right
      obtain ⟨hall, -⟩ := Enclosed.not_infix_of_not_closed Lexeme.blockEnd_ne_nil hclosed
      rw [consume_rest, hrest, hmore, List.drop_eq_nil_iff]
      simp [Lexeme.chars, Enclosed.charsThrough, hclosed, hall]

/-- Behind the whitespace that is skipped there is no more of it. -/
theorem not_isWhitespace_of_skipWhitespace {config : Config} {r : Reading} {c : SourceChar}
    {rest : List SourceChar} (hrest : (r.skipWhitespace config).rest = c :: rest) :
    config.isWhitespace c.char = false := by
  have hdrop : r.rest.drop (r.rest.takeWhile fun c => config.isWhitespace c.char).length =
      r.rest.dropWhile fun c => config.isWhitespace c.char :=
    (congrArg (List.drop _) List.takeWhile_append_dropWhile).symm.trans List.drop_left
  have hnot := List.head?_dropWhile_not (fun c => config.isWhitespace c.char) r.rest
  rw [← hdrop, ← skipWhitespace_rest, hrest] at hnot
  exact hnot

/-- Blanks are skipped up to what is none. -/
theorem skipWhitespace_of_blanks {config : Config} {r : Reading} {blanks more : List SourceChar}
    (hrest : r.rest = blanks ++ more) (hblanks : ∀ b ∈ blanks, config.isWhitespace b.char = true)
    (hmore : ∀ c ∈ more.head?, config.isWhitespace c.char = false) :
    r.skipWhitespace config = r.bumps blanks.length := by
  have hend : more.takeWhile (fun c => config.isWhitespace c.char) = [] := by
    cases more with
    | nil => rfl
    | cons c more => rw [List.takeWhile_cons, hmore c rfl, if_neg Bool.false_ne_true]
  rw [skipWhitespace, hrest, List.takeWhile_append_of_pos hblanks, hend, List.append_nil]

/-- A lexeme that is not passed over is found behind blanks. -/
theorem next_of_blanks {config : Config} {r : Reading} {blanks : List SourceChar} {c : SourceChar}
    {rest : List SourceChar} (hrest : r.rest = blanks ++ c :: rest)
    (hblanks : ∀ b ∈ blanks, config.isWhitespace b.char = true)
    (hc : config.passesOver c rest = false) :
    r.next config = ⟨some (.read config.mode c rest), r.bumps blanks.length,
      (r.bumps blanks.length).consume (.read config.mode c rest)⟩ := by
  rw [Config.passesOver, Bool.or_eq_false_iff] at hc
  have hskip := skipWhitespace_of_blanks hrest hblanks
    (List.head?_cons ▸ fun _ h => Option.some.inj h ▸ hc.1)
  have hbehind : (r.skipWhitespace config).rest = c :: rest := by
    rw [hskip, bumps_rest, hrest, List.drop_left]
  rw [next_of_skipWhitespace_rest_eq_cons config hbehind, hskip]
  dsimp only
  rw [if_neg (by simp [hc.2])]

/-- Behind blanks and nothing else, the end of the input is found. -/
theorem next_of_only_blanks {config : Config} {r : Reading}
    (hblanks : ∀ b ∈ r.rest, config.isWhitespace b.char = true) :
    r.next config = ⟨none, r.bumps r.rest.length, r.bumps r.rest.length⟩ := by
  have hskip := skipWhitespace_of_blanks (List.append_nil r.rest).symm hblanks
    fun c h => by cases h
  rw [next_of_skipWhitespace_rest_eq_nil config (by rw [hskip, bumps_rest, List.drop_length]),
    hskip]

/-- Where a lexeme is found, all that stands before it was read character by character, and then the
lexeme was read. -/
theorem exists_lexeme (config : Config) (r : Reading) (h : (r.next config).lexeme? ≠ none) :
    ∃ skipped c rest, r.rest.drop skipped = c :: rest ∧ config.passesOver c rest = false ∧
      r.next config = ⟨some (.read config.mode c rest), r.bumps skipped,
        (r.bumps skipped).consume (.read config.mode c rest)⟩ := by
  fun_induction next config r with
  | case1 r before hend => exact absurd rfl h
  | case2 r before c rest hrest lexeme after hlt hskip ih =>
    rw [Bool.and_eq_true] at hskip
    -- a comment that runs up to the end of the input has no lexeme behind it
    have hafter : after = before.bumps lexeme.chars.length := by
      refine (consume_comment hrest hskip.1).resolve_right ?_
      intro hend
      rw [next_of_rest_eq_nil config hend] at h
      exact h rfl
    have hbumps (n : Nat) : after.bumps n =
        r.bumps ((r.rest.takeWhile fun c => config.isWhitespace c.char).length +
          lexeme.chars.length + n) := by
      rw [hafter, ← bumps_bumps, ← bumps_bumps]
      rfl
    obtain ⟨skipped, d, more, hmore, hshown, hfound⟩ := ih h
    rw [← bumps_rest, hbumps, bumps_rest] at hmore
    rw [hbumps] at hfound
    exact ⟨_, d, more, hmore, hshown, hfound⟩
  | case3 r before c rest hrest lexeme after hlt hskip =>
    refine ⟨_, c, rest, ?_, ?_, rfl⟩
    · rw [← bumps_rest]
      exact hrest
    · rw [Config.passesOver, not_isWhitespace_of_skipWhitespace hrest, Bool.false_or]
      exact Bool.eq_false_iff.2 hskip

end Reading

end Lexis
