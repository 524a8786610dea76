import Mathlib.Data.List.Nodup
import Lexis.Lexeme.Kind
import Lexis.Text.Digit

/-!
# Telling kinds apart by their descriptions

A kind is described by the name of its category, as a character between quotes, or by its number
between angle brackets (`Kind.Describes`). The first character of a description tells which of the
three it is, and the rest of it which kind (`Kind.Describes.unique`). Nothing hangs on which
characters are written as escapes: however a character is written between quotes, it can be told
from that (`Text.Spells.unique`).
-/

namespace Lexis

namespace Text

/-! ## Numbers -/

/-- Digits stand for the number that they were written for. -/
theorem digitsValue_toDigits {base : Nat} (hlow : 1 < base) (hhigh : base ≤ 16) (n : Nat) :
    digitsValue base (Nat.toDigits base n) = n := by
  have hdigit : ∀ d < 16, digitValue (Nat.digitChar d) = d := by decide
  induction n using Nat.strongRecOn with
  | ind n ih =>
    by_cases hsmall : n < base
    · rw [Nat.toDigits_of_lt_base hsmall]
      simp [digitsValue, hdigit n (by omega)]
    · have hmod := Nat.mod_lt n (Nat.lt_of_succ_lt hlow)
      have hrest := ih (n / base) (Nat.div_lt_self (by omega) hlow)
      rw [digitsValue] at hrest
      rw [Nat.toDigits_of_base_le hlow (Nat.le_of_not_lt hsmall), digitsValue, List.foldl_append,
        hrest, List.foldl_cons, List.foldl_nil, hdigit _ (by omega), Nat.mul_comm]
      exact Nat.div_add_mod n base

theorem hex_injective : Function.Injective hex :=
  Function.LeftInverse.injective (digitsValue_toDigits (by decide : 1 < 16) (by decide))

/-- Whole numbers are written differently: a sign is no digit. -/
theorem toString_injective : Function.Injective (toString : Int → String) := by
  have hdigits {m n : Nat} (h : Nat.repr m = Nat.repr n) : m = n := by
    rw [Nat.repr_eq_ofList_toDigits, Nat.repr_eq_ofList_toDigits, String.ofList_inj] at h
    exact Function.LeftInverse.injective (digitsValue_toDigits (by decide : 1 < 10) (by decide)) h
  have hsign (m n : Nat) : Nat.repr m ≠ "-" ++ Nat.repr n := by
    intro h
    have hmem : '-' ∈ Nat.toDigits 10 m := by
      rw [← String.toList_ofList (l := Nat.toDigits 10 m), ← Nat.repr_eq_ofList_toDigits, h]
      simp
    exact absurd (Nat.isDigit_of_mem_toDigits (by decide) (by decide) hmem) (by decide)
  intro a b h
  cases a with
  | ofNat m =>
    cases b with
    | ofNat n => exact congrArg Int.ofNat (hdigits h)
    | negSucc n => exact absurd h (hsign _ _)
  | negSucc m =>
    cases b with
    | ofNat n => exact absurd h.symm (hsign _ _)
    | negSucc n =>
      have hsucc := hdigits ((String.append_right_inj "-").1 h)
      exact congrArg Int.negSucc (Nat.succ.inj hsucc)

/-! ## Characters between quotes -/

/-- The characters that are written as a backslash and a letter, with the letter. -/
def letterEscapes : List (Char × Char) :=
  [('\x00', '0'), ('\t', 't'), ('\n', 'n'), ('\r', 'r'), ('\x5c', '\x5c')]

/-- A text stands for a character between two quotes of the given kind. -/
inductive Spells (quote : Char) : Char → List Char → Prop
  | itself {c : Char} : Spells quote c [c]
  | letter {c letter : Char} (h : (c, letter) ∈ letterEscapes) : Spells quote c ['\x5c', letter]
  | quote : Spells quote quote ['\x5c', quote]
  | codePoint {c : Char} : Spells quote c ('\x5c' :: 'u' :: '\x7b' :: hex c.toNat ++ ['\x7d'])

theorem spells_escape (quote c : Char) : Spells quote c (escape quote c) := by
  unfold escape
  split_ifs with hnul htab hline hreturn hbackslash hquote hunprintable
  · subst hnul
    exact .letter (by decide)
  · subst htab
    exact .letter (by decide)
  · subst hline
    exact .letter (by decide)
  · subst hreturn
    exact .letter (by decide)
  · subst hbackslash
    exact .letter (by decide)
  · subst hquote
    exact .quote
  · exact .codePoint
  · exact .itself

/-- Between quotes that are no letters of escapes, a text stands for one character only. -/
theorem Spells.unique {quote a b : Char} {text : List Char}
    (hquote : quote ∉ letterEscapes.map Prod.snd) (ha : Spells quote a text)
    (hb : Spells quote b text) : a = b := by
  have hletters : (letterEscapes.map Prod.snd).Nodup := by decide
  have hother {c letter : Char} (h : (c, letter) ∈ letterEscapes) : letter ≠ quote :=
    fun heq => hquote (heq ▸ List.mem_map_of_mem h)
  cases ha with
  | itself =>
    cases hb with
    | itself => rfl
  | letter ha =>
    cases hb with
    | letter hb => exact congrArg Prod.fst (List.inj_on_of_nodup_map hletters ha hb rfl)
    | quote => exact absurd rfl (hother ha)
  | quote =>
    cases hb with
    | letter hb => exact absurd rfl (hother hb)
    | quote => rfl
  | codePoint =>
    generalize htext : '\x5c' :: 'u' :: '\x7b' :: hex a.toNat ++ ['\x7d'] = text at hb
    cases hb with
    | itself | letter | quote => cases htext
    | codePoint =>
      have hhex : hex a.toNat = hex b.toNat := by simpa using htext
      exact Char.toNat_inj.1 (hex_injective hhex)

/-- A character between double quotes can be told from what is written. -/
theorem doubleQuoted_injective : Function.Injective doubleQuoted := by
  intro a b h
  have hescape : escape '\x22' a = escape '\x22' b := by
    simpa [doubleQuoted, quoted, String.ofList_inj] using h
  have hb := spells_escape '\x22' b
  rw [← hescape] at hb
  exact (spells_escape '\x22' a).unique (by decide) hb

theorem head?_doubleQuoted (c : Char) : (doubleQuoted c).toList.head? = some '\x22' := by
  simp [doubleQuoted, quoted]

end Text

/-! ## The three ways to describe a kind -/

namespace Kind

/-- A text describes the kind of a code. -/
inductive Describes (code : Int) : String → Prop
  /-- The name of a category. -/
  | category {kind : Kind} {name : String} (hcode : kind.code = code)
      (hname : kind.name? = some name) : Describes code name
  /-- A character between quotes. -/
  | character {c : Char} (hcode : code = c.toNat) : Describes code (Text.doubleQuoted c)
  /-- A number between brackets. -/
  | number : Describes code ("<" ++ toString code ++ ">")

theorem eq_of_rune?_eq_some {code : Int} {c : Char} (h : rune? code = some c) :
    code = c.toNat := by
  unfold rune? at h
  split at h
  · next hvalid =>
    cases h
    rw [Char.ofNat, dif_pos hvalid.2]
    exact (Int.toNat_of_nonneg hvalid.1).symm
  · cases h

theorem describes_describe (code : Int) : Describes code (describe code) := by
  unfold describe
  split
  · next name hname =>
    obtain ⟨kind, hfind, hname⟩ := Option.bind_eq_some_iff.1 hname
    have hcode := List.find?_some hfind
    exact .category (eq_of_beq hcode) hname
  · split
    · next c hc => exact .character (eq_of_rune?_eq_some hc)
    · exact .number

theorem mem_categories {kind : Kind} {name : String} (h : kind.name? = some name) :
    kind ∈ categories := by
  cases kind with
  | rune c => cases h
  | _ => decide

/-- No two categories have the same name. -/
theorem eq_of_name?_eq {kind kind' : Kind} {name : String} (h : kind.name? = some name)
    (h' : kind'.name? = some name) : kind = kind' := by
  have hnames : (categories.map name?).Nodup := by decide
  exact List.inj_on_of_nodup_map hnames (mem_categories h) (mem_categories h') (h.trans h'.symm)

/-- No name starts as a quoted character or a number between brackets does. -/
theorem head?_name {kind : Kind} {name : String} (h : kind.name? = some name) :
    name.toList.head? ≠ some '\x22' ∧ name.toList.head? ≠ some '<' := by
  cases kind <;> cases h <;> decide

theorem head?_number (code : Int) : ("<" ++ toString code ++ ">").toList.head? = some '<' := by
  simp

/-- A name describes its category only. -/
theorem Describes.of_name {code : Int} {kind : Kind} {name : String} (h : Describes code name)
    (hname : kind.name? = some name) : code = kind.code := by
  cases h with
  | category hcode hname' => rw [eq_of_name?_eq hname hname', hcode]
  | character => exact absurd (Text.head?_doubleQuoted _) (head?_name hname).1
  | number => exact absurd (head?_number code) (head?_name hname).2

/-- A quoted character describes that character only. -/
theorem Describes.of_doubleQuoted {code : Int} {c : Char}
    (h : Describes code (Text.doubleQuoted c)) : code = c.toNat := by
  have hhead := Text.head?_doubleQuoted c
  generalize htext : Text.doubleQuoted c = text at h hhead
  cases h with
  | category hcode hname => exact absurd hhead (head?_name hname).1
  | character hcode => rw [hcode, Text.doubleQuoted_injective htext]
  | number =>
    rw [head?_number] at hhead
    cases hhead

/-- A number between brackets describes that number only. -/
theorem Describes.of_number {code n : Int} (h : Describes code ("<" ++ toString n ++ ">")) :
    code = n := by
  have hhead := head?_number n
  generalize htext : "<" ++ toString n ++ ">" = text at h hhead
  cases h with
  | category hcode hname => exact absurd hhead (head?_name hname).2
  | character =>
    rw [Text.head?_doubleQuoted] at hhead
    cases hhead
  | number =>
    rw [String.append_left_inj, String.append_right_inj] at htext
    exact (Text.toString_injective htext).symm

/-- A text describes the kind of one code only. -/
theorem Describes.unique {a b : Int} {text : String} (ha : Describes a text)
    (hb : Describes b text) : a = b := by
  cases ha with
  | category hcode hname => rw [hb.of_name hname, hcode]
  | character hcode => rw [hb.of_doubleQuoted, hcode]
  | number => exact hb.of_number.symm

/-- Kinds that are described alike have the same code, whatever their codes are. -/
theorem describe_injective : Function.Injective describe := by
  intro a b h
  have hb := describes_describe b
  rw [← h] at hb
  exact (describes_describe a).unique hb

end Kind

end Lexis
