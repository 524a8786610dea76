/-!
# Symbol tables

A symbol table gives names to kinds of tokens, so that a grammar can speak of them. The bindings are
kept in order of name, each name once, so two tables that bind alike are equal.
-/

namespace Lexis

/-- Names bound to codes of kinds. -/
structure SymbolTable where
  /-- The bindings in order of name. -/
  toList : List (String × Int)
  sorted : toList.Pairwise fun a b => a.1 < b.1
deriving DecidableEq

namespace SymbolTable

/-- The table without bindings. -/
def empty : SymbolTable := ⟨[], List.Pairwise.nil⟩

instance : EmptyCollection SymbolTable := ⟨empty⟩

instance : Inhabited SymbolTable := ⟨empty⟩

/-- Puts a binding in its place, instead of a binding of the same name. -/
def insertBinding (name : String) (kind : Int) : List (String × Int) → List (String × Int)
  | [] => [(name, kind)]
  | binding :: rest =>
    if name < binding.1 then (name, kind) :: binding :: rest
    else if name = binding.1 then (name, kind) :: rest
    else binding :: insertBinding name kind rest

theorem name_of_mem_insertBinding {name : String} {kind : Int} {bindings : List (String × Int)}
    {b : String × Int} (h : b ∈ insertBinding name kind bindings) : b.1 = name ∨ b ∈ bindings := by
  induction bindings with
  | nil => simp_all [insertBinding]
  | cons first rest ih =>
    simp only [insertBinding] at h
    split at h
    · rcases List.mem_cons.1 h with rfl | h
      · exact .inl rfl
      · exact .inr h
    split at h
    · rcases List.mem_cons.1 h with rfl | h
      · exact .inl rfl
      · exact .inr (List.mem_cons_of_mem _ h)
    · rcases List.mem_cons.1 h with rfl | h
      · exact .inr List.mem_cons_self
      · exact (ih h).imp_right (List.mem_cons_of_mem _)

/-- Putting a binding in its place keeps the order. -/
theorem sorted_insertBinding (name : String) (kind : Int) {bindings : List (String × Int)}
    (h : bindings.Pairwise fun a b => a.1 < b.1) :
    (insertBinding name kind bindings).Pairwise fun a b => a.1 < b.1 := by
  induction bindings with
  | nil => simp [insertBinding]
  | cons first rest ih =>
    obtain ⟨hfirst, hrest⟩ := List.pairwise_cons.1 h
    simp only [insertBinding]
    split
    · next hlt =>
      refine List.pairwise_cons.2 ⟨fun b hb => ?_, h⟩
      rcases List.mem_cons.1 hb with rfl | hb
      · exact hlt
      · exact String.lt_trans hlt (hfirst b hb)
    split
    · next heq =>
      exact List.pairwise_cons.2 ⟨fun b hb => heq ▸ hfirst b hb, hrest⟩
    · next hnot hne =>
      have hgt : first.1 < name := by
        rcases String.le_total name first.1 with hle | hle
        · exact absurd (String.le_antisymm hle hnot) hne
        · exact String.not_le.1 fun hle' => hne (String.le_antisymm hle' hle)
      refine List.pairwise_cons.2 ⟨fun b hb => ?_, ih hrest⟩
      rcases name_of_mem_insertBinding hb with heq | hb
      · exact heq ▸ hgt
      · exact hfirst b hb

/-- Binds a name to a kind, whatever it was bound to before. -/
def insert (t : SymbolTable) (name : String) (kind : Int) : SymbolTable :=
  ⟨insertBinding name kind t.toList, sorted_insertBinding name kind t.sorted⟩

/-- The table of the given bindings, the later of two for one name being the one that counts. -/
def ofList (bindings : List (String × Int)) : SymbolTable :=
  bindings.foldl (fun t (name, kind) => t.insert name kind) ∅

/-- The kind that a name is bound to. -/
def get? (t : SymbolTable) (name : String) : Option Int :=
  (t.toList.find? (·.1 == name)).map (·.2)

/-- Whether a name is bound. -/
def contains (t : SymbolTable) (name : String) : Bool :=
  (t.get? name).isSome

/-- A name that is bound to a kind, if there is one. -/
def nameOf? (t : SymbolTable) (kind : Int) : Option String :=
  (t.toList.find? (·.2 == kind)).map (·.1)

/-- Number of names. -/
def size (t : SymbolTable) : Nat :=
  t.toList.length

/-- Whether no name is bound. -/
def isEmpty (t : SymbolTable) : Bool :=
  t.toList.isEmpty

end SymbolTable

end Lexis
