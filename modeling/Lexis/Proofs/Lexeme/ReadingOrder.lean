import Lexis.Proofs.Lexeme.NumberOrder
import Lexis.Proofs.Scanner.Number

/-!
# Reading in order

Every way of reading a lexeme makes its reports in order, each kind of them where it can show
(`Reading.leads_consume_read`): a fault of an escape where it breaks off, an end that is missing
behind all that was read, and a literal between apostrophes that holds too much or too little at its
start. What is read on the way to the next lexeme is in order as well (`Reading.leads_next`).
-/

namespace Lexis

/-- The kinds of faults that a lexeme can have, with those of its characters, which for a number are
none. -/
def Lexeme.faultKinds : Lexeme → List Fault
  | number _ => Number.faultKinds
  | string _ => .literalNotTerminated :: .invalidEscape :: Fault.ofCharacter
  | char _ => .illegalCharLiteral :: .literalNotTerminated :: .invalidEscape :: Fault.ofCharacter
  | rawString _ => .literalNotTerminated :: Fault.ofCharacter
  | blockComment _ => .commentNotTerminated :: Fault.ofCharacter
  | _ => Fault.ofCharacter

namespace Reading

variable {r s : Reading}

/-- Of a number that stands there, the faults are reported in order. -/
theorem leads_consumeNumber {n : Number} {c : Char} (h : Begins n.text r.rest)
    (hcomposed : n.Composed) (hstarts : n.StartsWith c) :
    Leads Number.faultKinds r (r.consumeNumber n) := by
  have hoffset : (r.consumeNumber n).position.offset = r.position.offset + n.text.length := by
    rw [position, (passage_consumeNumber h).cursor_eq,
      advance_position_eq_across h (Nat.le_refl _)]
    rfl
  refine ⟨?_, _, reports_consumeNumber h hcomposed, ?_, ?_⟩
  · rw [hoffset]
    exact Nat.le_add_right _ _
  · rw [hoffset]
    exact Number.ordered_faults hcomposed hstarts r.position
  · intro report hreport
    obtain ⟨found, hfound, rfl⟩ := List.mem_map.1 hreport
    have hkind := n.sublist_faultKinds.subset (List.mem_map_of_mem hfound)
    obtain ⟨g, hg, hsame⟩ := List.mem_map.1 hkind
    exact ⟨g, hg, hsame.symm⟩

theorem leads_consumeItem (item : QuotedItem) (h : r.rest ≠ []) :
    Leads (.invalidEscape :: Fault.ofCharacter) r (r.consumeItem item) := by
  cases item with
  | plain c => exact (Leads.bump r).mono (List.subset_cons_self _ _)
  | escape e =>
    have hbody : Leads Fault.ofCharacter r (r.bump.bumps e.body.length) :=
      (Leads.bump r).trans (Leads.bumps r.bump _)
    have hlt := Nat.lt_of_lt_of_le (offset_lt_bump h) (Leads.bumps r.bump e.body.length).le
    simp only [consumeItem]
    split
    · exact hbody.mono (List.subset_cons_self _ _)
    · exact hbody.report hlt (by decide) (by decide)

theorem leads_foldl_consumeItem {items : List QuotedItem}
    (h : items.flatMap QuotedItem.chars <+: r.rest) :
    Leads (.invalidEscape :: Fault.ofCharacter) r (items.foldl consumeItem r) := by
  induction items generalizing r with
  | nil => exact Leads.refl _ r
  | cons item items ih =>
    obtain ⟨more, hmore⟩ := h
    rw [List.flatMap_cons, List.append_assoc] at hmore
    have hne : r.rest ≠ [] := by
      rw [← hmore]
      cases item <;> exact List.cons_ne_nil _ _
    have hrest : (r.consumeItem item).rest = items.flatMap QuotedItem.chars ++ more := by
      rw [consumeItem_rest, ← hmore, List.drop_left]
    exact (leads_consumeItem item hne).trans (ih ⟨more, hrest.symm⟩)

theorem leads_consumeQuoted {q : Quoted} (h : q.chars <+: r.rest) :
    Leads (.literalNotTerminated :: .invalidEscape :: Fault.ofCharacter) r (r.consumeQuoted q) ∧
      r.position.offset < (r.consumeQuoted q).position.offset := by
  obtain ⟨more, hmore⟩ := h
  have hne : r.rest ≠ [] := by
    rw [← hmore]
    exact List.cons_ne_nil _ _
  have hbehind : q.items.flatMap QuotedItem.chars <+: r.bump.rest := by
    rw [bump_rest, ← hmore]
    show q.items.flatMap QuotedItem.chars <+: q.items.flatMap QuotedItem.chars ++ _ ++ more
    rw [List.append_assoc]
    exact List.prefix_append _ _
  have hfirst : Leads (.invalidEscape :: Fault.ofCharacter) r r.bump :=
    (Leads.bump r).mono (List.subset_cons_self _ _)
  have hitems := leads_foldl_consumeItem hbehind
  have hlt := Nat.lt_of_lt_of_le (offset_lt_bump hne) hitems.le
  simp only [consumeQuoted]
  split
  · have hlast := Leads.bump (q.items.foldl consumeItem r.bump)
    have hboth := (hfirst.trans hitems).trans (hlast.mono (List.subset_cons_self _ _))
    exact ⟨hboth.mono (List.subset_cons_self _ _), Nat.lt_of_lt_of_le hlt hlast.le⟩
  · exact ⟨(hfirst.trans hitems).report hlt (by decide) (by decide), hlt⟩

theorem leads_consumeEnclosed {mark : List Char} {fault : Fault} {e : Enclosed}
    (h : Leads Fault.ofCharacter s r) (hlt : s.position.offset < r.position.offset)
    (hend : ¬ fault.IsOneOf Fault.atStart) (hnew : ¬ fault.IsOneOf Fault.ofCharacter) :
    Leads (fault :: Fault.ofCharacter) s (r.consumeEnclosed mark fault e) := by
  have hskip := Leads.skip r (e.charsThrough mark).length
  simp only [consumeEnclosed]
  split
  · exact (h.trans hskip).mono (List.subset_cons_self _ _)
  · exact (h.trans hskip).report (Nat.lt_of_lt_of_le hlt hskip.le) hend hnew

/-- Reading the lexeme that a source starts with makes reports of the kinds that the lexeme can
have, in order. -/
theorem leads_consume_read (mode : Mode) {c : SourceChar} {rest : List SourceChar}
    (h : r.rest = c :: rest) :
    Leads (Lexeme.read mode c rest).faultKinds r (r.consume (.read mode c rest)) := by
  have hne : r.rest ≠ [] := by
    rw [h]
    exact List.cons_ne_nil _ _
  have hlt := offset_lt_bump hne
  have hform := Lexeme.form_read mode c rest
  have hchars := Lexeme.chars_read_ne_nil mode c rest
  have hprefix := Lexeme.chars_read_isPrefix mode c rest
  rw [← h] at hprefix
  generalize Lexeme.read mode c rest = l at hform hchars hprefix ⊢
  have hnumber (floats : Bool) (hl : l = .number (.read floats (c :: rest)))
      (hc : c.char.isDigit = true ∨ c.char = '.') :
      Leads l.faultKinds r (r.consume l) := by
    subst hl
    have hbegins : Begins (Number.read floats (c :: rest)).text r.rest := by
      rw [h]
      exact Number.begins_read floats (c :: rest)
    have htext : (Number.read floats (c :: rest)).text ≠ [] := fun hnil =>
      hchars (by rw [Lexeme.chars, hnil, List.map_nil])
    exact leads_consumeNumber hbegins (Number.composed_read floats _)
      (Number.startsWith_read hc htext)
  cases hform with
  | identifier => exact Leads.bumps r _
  | number hdigit => exact hnumber _ rfl (.inl hdigit)
  | point hc => exact hnumber _ rfl (.inr (by rw [hc, SourceChar.char_valid]))
  | quoted quoting =>
    cases quoting with
    | double => exact (leads_consumeQuoted hprefix).1
    | single =>
      obtain ⟨hquoted, hbehind⟩ := leads_consumeQuoted hprefix
      simp only [Quoting.read, consume]
      split
      · exact hquoted.mono (List.subset_cons_self _ _)
      · refine hquoted.reportAt ?_ (by decide)
        have hstart : Fault.illegalCharLiteral.IsOneOf Fault.atStart := by decide
        rw [Report.IsWithin, if_pos hstart]
        exact ⟨Nat.le_refl _, hbehind⟩
    | backticks => exact leads_consumeEnclosed (Leads.bump r) hlt (by decide) (by decide)
  | lineComment => exact (Leads.bump r).trans (Leads.skip r.bump _)
  | blockComment =>
    have htwo : Leads Fault.ofCharacter r r.bump.bump := (Leads.bump r).trans (Leads.bump r.bump)
    exact leads_consumeEnclosed htwo (Nat.lt_of_lt_of_le hlt (Leads.bump r.bump).le) (by decide)
      (by decide)
  | single => exact Leads.bump r

/-! ## Finding the next lexeme -/

/-- What can be wrong before the next lexeme, where comments are left out. -/
def gapFaultKinds : List Fault :=
  .commentNotTerminated :: Fault.ofCharacter

/-- Looking for the next lexeme, and reading it, makes reports in order. -/
theorem leads_next (config : Config) (r : Reading) :
    Leads gapFaultKinds r (r.next config).before ∧
      ∃ kinds, Leads kinds (r.next config).before (r.next config).after := by
  have hskip (r : Reading) : Leads gapFaultKinds r (r.skipWhitespace config) :=
    (Leads.bumps r _).mono (List.subset_cons_self _ _)
  fun_induction next config r with
  | case1 r before => exact ⟨hskip r, [], Leads.refl _ _⟩
  | case2 r before c rest hrest lexeme after hlt hcomment ih =>
    have hkinds : lexeme.faultKinds ⊆ gapFaultKinds := by
      have hisComment := (Bool.and_eq_true_iff.1 hcomment).1
      generalize lexeme = l at hisComment
      cases l with
      | lineComment e => exact List.subset_cons_self _ _
      | blockComment e => exact List.Subset.refl _
      | _ => cases hisComment
    have hlexeme := (leads_consume_read config.mode hrest).mono hkinds
    exact ⟨((hskip r).trans hlexeme).trans ih.1, ih.2⟩
  | case3 r before c rest hrest lexeme after hlt =>
    exact ⟨hskip r, _, leads_consume_read config.mode hrest⟩

end Reading

end Lexis
