import Lexis.Proofs.Source.Bytes
import Lexis.Proofs.Stepwise.Basic

/-!
# Steppers that go together

All that a scan learns of a stepper is the head that it shows. So two steppers that show the same
head and go on doing so at every move scan alike: where one of them fails the other does, and where
they come to an outcome, they tell the same and still go together (`Stepper.Simulates.scan?`).
-/

namespace Lexis

/-! ## Outcomes that go together -/

section Outcomes

variable {α β γ δ : Type} {R : α → β → Prop} {S : γ → δ → Prop}

/-- What is made of outcomes that go together goes together, if the steps that make it do. -/
theorem rel_bind {x : Option α} {y : Option β} {f : α → Option γ} {g : β → Option δ}
    (h : Option.Rel R x y) (hnext : ∀ a b, R a b → Option.Rel S (f a) (g b)) :
    Option.Rel S (x >>= f) (y >>= g) := by
  cases h with
  | some hab => exact hnext _ _ hab
  | none => exact .none

/-- Two steps that go on from the same outcome need to go together for that one only. -/
theorem rel_bind_left (x : Option α) {f : α → Option γ} {g : α → Option δ}
    (hnext : ∀ a, Option.Rel S (f a) (g a)) : Option.Rel S (x >>= f) (x >>= g) := by
  cases x with
  | some a => exact hnext a
  | none => exact .none

theorem rel_ite {a a' : α} {b b' : β} (c : Prop) [Decidable c] (h : R a b) (h' : R a' b') :
    R (if c then a else a') (if c then b else b') := by
  split
  · exact h
  · exact h'

/-- Two pairs tell the same in their first part, and go together in their second. -/
def Alike {κ : Type} (R : α → β → Prop) (a : κ × α) (b : κ × β) : Prop :=
  a.1 = b.1 ∧ R a.2 b.2

end Outcomes

/-! ## What is found stands within the source -/

theorem Cursor.add_length_le_of_indexOfBytes? {needle bytes : List UInt8} {n : Nat}
    (h : indexOfBytes? needle bytes = some n) : n + needle.length ≤ bytes.length := by
  induction bytes generalizing n with
  | nil =>
    rw [indexOfBytes?] at h
    split at h
    · next hempty =>
      cases h
      rw [List.isEmpty_iff.1 hempty]
      exact Nat.le_refl _
    · cases h
  | cons b bytes ih =>
    rw [indexOfBytes?] at h
    split at h
    · next hprefix =>
      cases h
      rw [Nat.zero_add]
      exact (List.isPrefixOf_iff_prefix.1 hprefix).length_le
    · obtain ⟨m, hm, rfl⟩ := Option.map_eq_some_iff.1 h
      have hle := ih hm
      rw [List.length_cons]
      omega

theorem Head.add_length_le_of_find? {h : Head} {needle : List UInt8} {found : Nat}
    (hfind : h.find? needle = some (some found)) : found + needle.length ≤ h.source.size := by
  unfold find? at hfind
  split at hfind
  · next hle =>
    obtain ⟨n, hn, rfl⟩ := Option.map_eq_some_iff.1 (Option.some.inj hfind)
    have hwithin := Cursor.add_length_le_of_indexOfBytes? hn
    rw [List.length_drop, Utf8.length_bytesOf, ← Source.size] at hwithin
    omega
  · cases hfind

namespace Stepper

variable {σ τ : Type} [Stepper σ] [Stepper τ]

/-- Steppers between which `R` holds show the same head, and `R` holds after every move within the
source, or neither of them can make it. -/
structure Simulates (R : σ → τ → Prop) : Prop where
  head_eq : ∀ {s t}, R s t → head s = head t
  reportAt : ∀ {s t}, R s t → ∀ p f, R (Stepper.reportAt s p f) (Stepper.reportAt t p f)
  bump? : ∀ {s t}, R s t → Option.Rel R (Stepper.bump? s) (Stepper.bump? t)
  skipTo? : ∀ {s t}, R s t → ∀ {stop}, stop ≤ (head t).source.size →
    Option.Rel R (Stepper.skipTo? s stop) (Stepper.skipTo? t stop)

namespace Simulates

variable {R : σ → τ → Prop} {s : σ} {t : τ}

theorem report (h : Simulates R) (hst : R s t) (fault : Fault) :
    R (Stepper.report s fault) (Stepper.report t fault) := by
  rw [Stepper.report, Stepper.report, h.head_eq hst]
  exact h.reportAt hst _ fault

/-! ## Stretches -/

theorem skipWhile? (h : Simulates R) (test : Char → Option Bool) (rounds : Nat) (hst : R s t) :
    Option.Rel R (Stepper.skipWhile? test rounds s) (Stepper.skipWhile? test rounds t) := by
  induction rounds generalizing s t with
  | zero => exact .none
  | succ rounds ih =>
    rw [Stepper.skipWhile?, Stepper.skipWhile?, h.head_eq hst]
    refine rel_bind_left _ fun c => ?_
    cases c with
    | none => exact .some hst
    | some c =>
      refine rel_bind_left _ fun passes => ?_
      split
      · exact rel_bind (h.bump? hst) fun s t hst => ih hst
      · exact .some hst

theorem enclosed? (h : Simulates R) (mark : List Char) (fault : Fault) (hst : R s t) :
    Option.Rel R (Stepper.enclosed? mark fault s) (Stepper.enclosed? mark fault t) := by
  rw [Stepper.enclosed?, Stepper.enclosed?, h.head_eq hst]
  cases hfind : (head t).find? (Utf8.bytesOf mark) with
  | none => exact .none
  | some found =>
    simp only [Option.bind_eq_bind, Option.bind_some]
    cases found with
    | none =>
      exact rel_bind (h.skipTo? hst (Nat.le_refl _)) fun s t hst => .some (h.report hst fault)
    | some found => exact h.skipTo? hst (Head.add_length_le_of_find? hfind)

theorem comment? (h : Simulates R) (hst : R s t) :
    Option.Rel R (Stepper.comment? s) (Stepper.comment? t) := by
  rw [Stepper.comment?, Stepper.comment?, h.head_eq hst]
  refine rel_bind_left _ fun c => ?_
  split
  · cases hfind : (head t).find? (Utf8.bytesOf Lexeme.lineEnd) with
    | none => exact .none
    | some found =>
      cases found with
      | none => exact h.skipTo? hst (Nat.le_refl _)
      | some found =>
        have hwithin := Head.add_length_le_of_find? hfind
        exact h.skipTo? hst (Nat.le_trans (Nat.le_add_right _ _) hwithin)
  · exact rel_bind (h.bump? hst) fun s t hst => h.enclosed? _ _ hst

/-! ## Quoted literals -/

theorem escapeDigits? (h : Simulates R) (isDigit : Char → Bool) (width : Nat) (hst : R s t) :
    Option.Rel R (Stepper.escapeDigits? isDigit width s)
      (Stepper.escapeDigits? isDigit width t) := by
  induction width generalizing s t with
  | zero => exact .some hst
  | succ width ih =>
    rw [Stepper.escapeDigits?, Stepper.escapeDigits?, h.head_eq hst]
    refine rel_bind_left _ fun c => ?_
    cases c with
    | none => exact .some (h.report hst _)
    | some c =>
      dsimp only
      split
      · exact rel_bind (h.bump? hst) fun s t hst => ih hst
      · exact .some (h.report hst _)

theorem escape? (h : Simulates R) (quote : Char) (hst : R s t) :
    Option.Rel R (Stepper.escape? quote s) (Stepper.escape? quote t) := by
  rw [Stepper.escape?, Stepper.escape?, h.head_eq hst]
  refine rel_bind_left _ fun c => ?_
  cases c with
  | none => exact .some (h.report hst _)
  | some c =>
    dsimp only
    split
    · exact h.bump? hst
    split
    · exact h.escapeDigits? _ _ hst
    cases Escape.hexWidth? c with
    | none => exact .some (h.report hst _)
    | some width => exact rel_bind (h.bump? hst) fun s t hst => h.escapeDigits? _ _ hst

theorem items? (h : Simulates R) (quote : Char) (rounds count : Nat) (hst : R s t) :
    Option.Rel (Alike R) (Stepper.items? quote rounds count s)
      (Stepper.items? quote rounds count t) := by
  induction rounds generalizing count s t with
  | zero => exact .none
  | succ rounds ih =>
    rw [Stepper.items?, Stepper.items?, h.head_eq hst]
    refine rel_bind_left _ fun c => ?_
    cases c with
    | none => exact .some ⟨rfl, h.report hst _⟩
    | some c =>
      dsimp only
      split
      · exact rel_bind (h.bump? hst) fun s t hst => .some ⟨rfl, hst⟩
      split
      · exact .some ⟨rfl, h.report hst _⟩
      split
      · exact rel_bind (h.bump? hst) fun s t hst =>
          rel_bind (h.escape? quote hst) fun s t hst => ih _ hst
      · exact rel_bind (h.bump? hst) fun s t hst => ih _ hst

/-! ## Numbers -/

theorem digits? (h : Simulates R) (radix : Radix) (rounds : Nat) (seen : Seen) (hst : R s t) :
    Option.Rel (Alike R) (Stepper.digits? radix rounds seen s)
      (Stepper.digits? radix rounds seen t) := by
  induction rounds generalizing seen s t with
  | zero => exact .none
  | succ rounds ih =>
    rw [Stepper.digits?, Stepper.digits?, h.head_eq hst]
    refine rel_bind_left _ fun c => ?_
    split
    · exact rel_bind (h.bump? hst) fun s t hst => ih _ hst
    · exact .some ⟨rfl, hst⟩

theorem lead? (h : Simulates R) (hst : R s t) :
    Option.Rel (Alike (Alike R)) (Stepper.lead? s) (Stepper.lead? t) := by
  rw [Stepper.lead?, Stepper.lead?, h.head_eq hst]
  refine rel_bind_left _ fun c => ?_
  split
  · refine rel_bind (h.bump? hst) fun s t hst => ?_
    rw [h.head_eq hst]
    refine rel_bind_left _ fun letter => ?_
    cases Radix.ofLetter? letter with
    | none => exact .some ⟨rfl, rfl, hst⟩
    | some radix => exact rel_bind (h.bump? hst) fun s t hst => .some ⟨rfl, rfl, hst⟩
  · exact .some ⟨rfl, rfl, hst⟩

theorem mantissa? (h : Simulates R) (rounds : Nat) (floats : Bool) (hst : R s t) :
    Option.Rel (Alike (Alike (Alike R))) (Stepper.mantissa? rounds floats s)
      (Stepper.mantissa? rounds floats t) := by
  rw [Stepper.mantissa?, Stepper.mantissa?]
  refine rel_bind (h.lead? hst) ?_
  rintro ⟨radix, seen, s⟩ ⟨_, _, t⟩ ⟨rfl, rfl, hst⟩
  refine rel_bind (h.digits? radix rounds seen hst) ?_
  rintro ⟨seen, s⟩ ⟨_, t⟩ ⟨rfl, hst⟩
  dsimp only
  rw [h.head_eq hst]
  refine rel_bind_left _ fun c => ?_
  split
  · refine rel_bind (h.bump? hst) fun s t hst => ?_
    refine rel_bind (h.digits? radix rounds seen (rel_ite _ (h.reportAt hst _ _) hst)) ?_
    rintro ⟨seen, s⟩ ⟨_, t⟩ ⟨rfl, hst⟩
    exact .some ⟨rfl, rfl, rfl, hst⟩
  · exact .some ⟨rfl, rfl, rfl, hst⟩

theorem fraction? (h : Simulates R) (rounds : Nat) (hst : R s t) :
    Option.Rel (Alike (Alike (Alike R))) (Stepper.fraction? rounds s)
      (Stepper.fraction? rounds t) := by
  refine rel_bind (h.digits? .decimal rounds .nothing hst) ?_
  rintro ⟨seen, s⟩ ⟨_, t⟩ ⟨rfl, hst⟩
  exact .some ⟨rfl, rfl, rfl, hst⟩

theorem sign? (h : Simulates R) (hst : R s t) :
    Option.Rel R (Stepper.sign? s) (Stepper.sign? t) := by
  rw [Stepper.sign?, Stepper.sign?, h.head_eq hst]
  refine rel_bind_left _ fun sign => ?_
  split
  · exact h.bump? hst
  · exact .some hst

theorem exponent? (h : Simulates R) (rounds : Nat) (floats : Bool) (radix : Radix) (isFloat : Bool)
    (hst : R s t) :
    Option.Rel (Alike (Alike R)) (Stepper.exponent? rounds floats radix isFloat s)
      (Stepper.exponent? rounds floats radix isFloat t) := by
  rw [Stepper.exponent?, Stepper.exponent?, h.head_eq hst]
  refine rel_bind_left _ fun marker => ?_
  split
  · have htold := rel_ite (marker = 'p' || marker = 'P')
      (rel_ite (radix = .hexadecimal) hst (h.report hst (.exponentRequiresHex marker)))
      (rel_ite (radix = .decimal || radix = .leadingZero) hst
        (h.report hst (.exponentRequiresDecimal marker)))
    refine rel_bind (h.bump? htold) fun s t hst => ?_
    refine rel_bind (h.sign? hst) fun s t hst => ?_
    refine rel_bind (h.digits? .decimal rounds .nothing hst) ?_
    rintro ⟨seen, s⟩ ⟨_, t⟩ ⟨rfl, hst⟩
    exact .some ⟨rfl, rfl, rel_ite _ hst (h.report hst _)⟩
  split
  · exact .some ⟨rfl, rfl, h.report hst _⟩
  · exact .some ⟨rfl, rfl, hst⟩

theorem reportExceeding (h : Simulates R) (radix : Radix) (seen : Seen) (hst : R s t) :
    R (Stepper.reportExceeding radix seen s) (Stepper.reportExceeding radix seen t) := by
  unfold Stepper.reportExceeding
  cases seen.exceeding with
  | none => exact hst
  | some found => exact h.reportAt hst _ _

theorem separators? (h : Simulates R) (rounds : Nat) (start : Position) (seen : Bool)
    (hst : R s t) :
    Option.Rel R (Stepper.separators? rounds start seen s)
      (Stepper.separators? rounds start seen t) := by
  rw [Stepper.separators?, Stepper.separators?, h.head_eq hst]
  split
  · exact .some hst
  refine rel_bind_left _ fun text => rel_bind_left _ fun misplaced => ?_
  cases misplaced with
  | none => exact .some hst
  | some index => exact .some (h.reportAt hst _ _)

theorem numberEnd? (h : Simulates R) (rounds : Nat) (floats : Bool) (start : Position)
    (radix : Radix) (seen : Seen) (isFloat : Bool) (hst : R s t) :
    Option.Rel (Alike R) (Stepper.numberEnd? rounds floats start (radix, seen, isFloat, s))
      (Stepper.numberEnd? rounds floats start (radix, seen, isFloat, t)) := by
  rw [Stepper.numberEnd?, Stepper.numberEnd?]
  refine rel_bind (h.exponent? rounds floats radix isFloat
    (rel_ite _ hst (h.report hst _))) ?_
  rintro ⟨separator, isFloat, s⟩ ⟨_, _, t⟩ ⟨rfl, rfl, hst⟩
  refine rel_bind (h.separators? rounds start _
    (rel_ite _ hst (h.reportExceeding radix seen hst))) fun s t hst => ?_
  exact .some ⟨rfl, hst⟩

/-! ## Lexemes -/

theorem point? (h : Simulates R) (mode : Mode) (rounds : Nat) (start : Position) (hst : R s t) :
    Option.Rel (Alike R) (Stepper.point? mode rounds start s)
      (Stepper.point? mode rounds start t) := by
  rw [Stepper.point?, Stepper.point?, h.head_eq hst]
  refine rel_bind_left _ fun next => ?_
  split
  · refine rel_bind (h.fraction? rounds hst) ?_
    rintro ⟨radix, seen, isFloat, s⟩ ⟨_, _, _, t⟩ ⟨rfl, rfl, rfl, hst⟩
    refine rel_bind (h.numberEnd? rounds true start radix seen isFloat hst) ?_
    rintro ⟨kind, s⟩ ⟨_, t⟩ ⟨rfl, hst⟩
    exact .some ⟨rfl, hst⟩
  · exact .some ⟨rfl, hst⟩

theorem slash? (h : Simulates R) (mode : Mode) (hst : R s t) :
    Option.Rel (Alike R) (Stepper.slash? mode s) (Stepper.slash? mode t) := by
  rw [Stepper.slash?, Stepper.slash?, h.head_eq hst]
  refine rel_bind_left _ fun next => ?_
  split
  · exact rel_bind (h.comment? hst) fun s t hst => .some ⟨rfl, hst⟩
  · exact .some ⟨rfl, hst⟩

theorem lexeme? (h : Simulates R) (mode : Mode) (rounds : Nat) (hst : R s t) :
    Option.Rel (Alike R) (Stepper.lexeme? mode rounds s) (Stepper.lexeme? mode rounds t) := by
  rw [Stepper.lexeme?, Stepper.lexeme?, h.head_eq hst]
  refine rel_bind_left _ fun c => ?_
  cases c with
  | none => exact .some ⟨rfl, hst⟩
  | some c =>
    refine rel_bind (h.bump? hst) fun s' t' hafter => ?_
    split
    · split
      · exact rel_bind (h.skipWhile? _ rounds hafter) fun s t hst => .some ⟨rfl, hst⟩
      · exact .some ⟨rfl, hafter⟩
    split
    · split
      · refine rel_bind (h.mantissa? rounds _ hst) ?_
        rintro ⟨radix, seen, isFloat, s⟩ ⟨_, _, _, t⟩ ⟨rfl, rfl, rfl, hst⟩
        refine rel_bind (h.numberEnd? rounds _ _ radix seen isFloat hst) ?_
        rintro ⟨kind, s⟩ ⟨_, t⟩ ⟨rfl, hst⟩
        exact .some ⟨rfl, hst⟩
      · exact .some ⟨rfl, hafter⟩
    split
    · refine rel_bind (h.items? _ rounds 0 hafter) ?_
      rintro ⟨count, s⟩ ⟨_, t⟩ ⟨rfl, hst⟩
      exact .some ⟨rfl, hst⟩
    split
    · refine rel_bind (h.items? _ rounds 0 hafter) ?_
      rintro ⟨count, s⟩ ⟨_, t⟩ ⟨rfl, hst⟩
      exact .some ⟨rfl, rel_ite _ hst (h.reportAt hst _ _)⟩
    split
    · exact rel_bind (h.enclosed? _ _ hafter) fun s t hst => .some ⟨rfl, hst⟩
    split
    · exact h.point? mode rounds _ hafter
    split
    · exact h.slash? mode hafter
    · exact .some ⟨rfl, hafter⟩

/-- Steppers that go together scan alike: neither fails where the other does not, they tell the same
kind and the same start, and they still go together. -/
theorem scan? (h : Simulates R) (config : Config) (rounds : Nat) (hst : R s t) :
    Option.Rel (Alike (Alike R)) (Stepper.scan? config rounds s)
      (Stepper.scan? config rounds t) := by
  induction rounds generalizing s t with
  | zero => exact .none
  | succ rounds ih =>
    rw [Stepper.scan?, Stepper.scan?]
    refine rel_bind (h.skipWhile? _ _ hst) fun s t hst => ?_
    refine rel_bind (h.lexeme? _ _ hst) ?_
    rintro ⟨kind, s'⟩ ⟨_, t'⟩ ⟨rfl, hafter⟩
    cases kind with
    | none => exact ih hafter
    | some kind => exact .some ⟨rfl, congrArg Head.position (h.head_eq hst), hafter⟩

end Simulates

end Stepper

end Lexis
