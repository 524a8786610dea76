import Mathlib.Data.List.Dedup
import Mathlib.Data.List.Induction
import Mathlib.Data.List.Sort
import Lexis.SymbolTable

/-!
# Symbol tables as maps

A symbol table is the map that its entries denote, of two entries for one name the later
(`SymbolTable.Denotes`). Everything that can be asked of a table follows from the kinds that it has
for names, and tables that have the same are equal (`SymbolTable.eq_iff`). The main result is
`SymbolTable.ofList_denotes`.
-/

namespace Lexis

namespace SymbolTable

/-! ## Entries and their names -/

section Entries

variable {entries more : List (String × Int)} {name : String} {kind : Int} {b : String × Int}

/-- The kind in the last entry of a name. -/
def lastKind? (entries : List (String × Int)) (name : String) : Option Int :=
  (entries.findRev? (·.1 == name)).map (·.2)

/-- The name in the first entry of a kind. -/
def firstName? (entries : List (String × Int)) (kind : Int) : Option String :=
  (entries.find? (·.2 == kind)).map (·.1)

/-- An entry whose name is its own is found under it. -/
theorem find?_eq_some_iff_of_nodup (h : (entries.map Prod.fst).Nodup) :
    entries.find? (·.1 == name) = some b ↔ b ∈ entries ∧ b.1 = name := by
  induction entries with
  | nil => simp
  | cons first rest ih =>
    rw [List.map_cons, List.nodup_cons] at h
    by_cases hfirst : first.1 = name
    · subst hfirst
      have hfound : (first :: rest).find? (·.1 == first.1) = some first :=
        List.find?_cons_of_pos (beq_self_eq_true _)
      rw [hfound, Option.some.injEq, List.mem_cons]
      constructor
      · rintro rfl
        exact ⟨.inl rfl, rfl⟩
      · rintro ⟨rfl | hmem, hname⟩
        · rfl
        · exact absurd (hname ▸ List.mem_map_of_mem hmem) h.1
    · rw [List.find?_cons_of_neg (by simpa using hfirst), ih h.2, List.mem_cons]
      refine and_congr_left fun hname => ⟨.inr, fun hmem => hmem.resolve_left ?_⟩
      rintro rfl
      exact hfirst hname

/-- Where names are not used twice, the only entry of a name is the last. -/
theorem lastKind?_eq_some_iff_of_nodup (h : (entries.map Prod.fst).Nodup) :
    lastKind? entries name = some kind ↔ (name, kind) ∈ entries := by
  have hreverse : (entries.reverse.map Prod.fst).Nodup := by
    rw [List.map_reverse, List.nodup_reverse]
    exact h
  rw [lastKind?, List.findRev?_eq_find?_reverse, Option.map_eq_some_iff]
  simp only [find?_eq_some_iff_of_nodup hreverse, List.mem_reverse]
  constructor
  · rintro ⟨⟨_, _⟩, ⟨hmem, rfl⟩, rfl⟩
    exact hmem
  · exact fun hmem => ⟨_, ⟨hmem, rfl⟩, rfl⟩

theorem lastKind?_append :
    lastKind? (entries ++ more) name = (lastKind? more name).or (lastKind? entries name) := by
  simp only [lastKind?, List.findRev?_eq_find?_reverse, List.reverse_append, List.find?_append,
    Option.map_or]

theorem lastKind?_eq_none_iff : lastKind? entries name = none ↔ name ∉ entries.map Prod.fst := by
  rw [lastKind?, List.findRev?_eq_find?_reverse, Option.map_eq_none_iff, List.find?_eq_none,
    List.mem_map]
  constructor
  · rintro h ⟨b, hmem, rfl⟩
    exact h b (List.mem_reverse.2 hmem) (beq_self_eq_true b.1)
  · intro h b hmem hname
    exact h ⟨b, List.mem_reverse.1 hmem, beq_iff_eq.1 hname⟩

/-- A binding that is found by its kind is one that has it, in whatever order they are. -/
theorem firstName?_eq_none_iff :
    firstName? entries kind = none ↔ ∀ name, (name, kind) ∉ entries := by
  rw [firstName?, Option.map_eq_none_iff, List.find?_eq_none]
  constructor
  · intro h name hmem
    exact h _ hmem (beq_self_eq_true kind)
  · rintro h ⟨name, other⟩ hmem hother
    rw [beq_iff_eq] at hother
    exact h name (hother ▸ hmem)

theorem mem_of_firstName?_eq_some (h : firstName? entries kind = some name) :
    (name, kind) ∈ entries := by
  obtain ⟨⟨_, other⟩, hfound, rfl⟩ := Option.map_eq_some_iff.1 h
  have hkind := List.find?_some hfound
  rw [beq_iff_eq] at hkind
  exact hkind ▸ List.mem_of_find?_eq_some hfound

end Entries

/-! ## Tables -/

variable {t u : SymbolTable} {name other : String} {kind : Int}

/-- No name is bound twice. -/
theorem nodup_names (t : SymbolTable) : (t.toList.map Prod.fst).Nodup := by
  rw [List.Nodup, List.pairwise_map]
  refine t.sorted.imp fun {a b} hlt heq => ?_
  rw [heq] at hlt
  exact String.lt_irrefl _ hlt

theorem get?_eq_some_iff : t.get? name = some kind ↔ (name, kind) ∈ t.toList := by
  rw [get?, Option.map_eq_some_iff]
  simp only [find?_eq_some_iff_of_nodup t.nodup_names]
  constructor
  · rintro ⟨⟨_, _⟩, ⟨hmem, rfl⟩, rfl⟩
    exact hmem
  · exact fun hmem => ⟨_, ⟨hmem, rfl⟩, rfl⟩

/-- Tables that have the same kinds for names are equal. -/
theorem eq_iff : t = u ↔ ∀ name, t.get? name = u.get? name := by
  constructor
  · rintro rfl name
    rfl
  · intro h
    -- lists in one order that hold the same bindings are the same
    have : Std.Irrefl fun a b : String × Int => a.1 < b.1 := ⟨fun a => String.lt_irrefl a.1⟩
    have : Std.Antisymm fun a b : String × Int => a.1 < b.1 :=
      ⟨fun a b hab hba => absurd (String.lt_trans hab hba) (String.lt_irrefl a.1)⟩
    have hmem (b : String × Int) : b ∈ t.toList ↔ b ∈ u.toList := by
      rw [← get?_eq_some_iff, ← get?_eq_some_iff, h]
    have hlist := t.sorted.eq_of_mem_iff u.sorted hmem
    cases t
    cases u
    cases hlist
    rfl

/-- A binding that is put in its place stands there, and no other of the name does. -/
theorem mem_insertBinding_iff {bindings : List (String × Int)}
    (h : bindings.Pairwise fun a b => a.1 < b.1) {b : String × Int} :
    b ∈ insertBinding name kind bindings ↔ b = (name, kind) ∨ b ∈ bindings ∧ b.1 ≠ name := by
  induction bindings with
  | nil => simp [insertBinding]
  | cons first rest ih =>
    obtain ⟨hfirst, hrest⟩ := List.pairwise_cons.1 h
    -- where the binding goes in front of others, all names behind it are greater
    have hbehind {more : List (String × Int)} (hmore : ∀ d ∈ more, name < d.1) :
        b ∈ more ↔ b ∈ more ∧ b.1 ≠ name := by
      rw [iff_self_and]
      rintro hmem rfl
      exact String.lt_irrefl _ (hmore b hmem)
    rw [insertBinding]
    split
    · next hlt =>
      have hall : ∀ d ∈ first :: rest, name < d.1 := by
        rintro d (_ | ⟨_, hd⟩)
        · exact hlt
        · exact String.lt_trans hlt (hfirst d hd)
      rw [List.mem_cons, ← hbehind hall]
    split
    · next heq =>
      have hsame : ¬ (b = first ∧ b.1 ≠ name) := by
        rintro ⟨rfl, hne⟩
        exact hne heq.symm
      rw [List.mem_cons, hbehind (heq ▸ hfirst), List.mem_cons, or_and_right, or_iff_right hsame]
    · next hne =>
      have hother : b = first ↔ b = first ∧ b.1 ≠ name := by
        rw [iff_self_and]
        rintro rfl
        exact Ne.symm hne
      rw [List.mem_cons, ih hrest, List.mem_cons, or_and_right, ← hother, or_left_comm]

theorem get?_insert :
    (t.insert name kind).get? other = if other = name then some kind else t.get? other := by
  ext k
  rw [get?_eq_some_iff, insert, mem_insertBinding_iff t.sorted]
  split
  · next heq => simp [heq, eq_comm]
  · next hne => simp [hne, get?_eq_some_iff]

/-- A name has the kind of its last entry. -/
theorem get?_ofList (entries : List (String × Int)) (name : String) :
    (ofList entries).get? name = lastKind? entries name := by
  induction entries using List.reverseRecOn with
  | nil => rfl
  | append_singleton entries last ih =>
    have hlast : ofList (entries ++ [last]) = (ofList entries).insert last.1 last.2 :=
      List.foldl_append
    rw [hlast, get?_insert, ih, lastKind?_append]
    by_cases hname : last.1 = name
    · simp [hname, lastKind?, List.findRev?]
    · simp [hname, lastKind?, List.findRev?, Ne.symm hname]

/-- Every name of the entries is bound, and no other. -/
theorem mem_names_ofList (entries : List (String × Int)) (name : String) :
    name ∈ (ofList entries).toList.map Prod.fst ↔ name ∈ entries.map Prod.fst := by
  have hbound : name ∈ (ofList entries).toList.map Prod.fst ↔
      ∃ kind, (ofList entries).get? name = some kind := by
    simp [get?_eq_some_iff]
  rw [hbound, get?_ofList, ← not_iff_not, ← lastKind?_eq_none_iff,
    Option.eq_none_iff_forall_ne_some, not_exists]

/-! ## What a table denotes -/

/-- The table is the map that the entries denote. -/
structure Denotes (t : SymbolTable) (entries : List (String × Int)) : Prop where
  get?_eq : ∀ name, t.get? name = lastKind? entries name
  get?_eq_none_iff : ∀ name, t.get? name = none ↔ name ∉ entries.map Prod.fst
  contains_eq : ∀ name, t.contains name = (t.get? name).isSome
  /-- Each name is listed once, with the kind that it has. -/
  nodup : (t.toList.map Prod.fst).Nodup
  mem_toList_iff : ∀ name kind, (name, kind) ∈ t.toList ↔ t.get? name = some kind
  size_eq : t.size = (entries.map Prod.fst).dedup.length
  isEmpty_iff : t.isEmpty = true ↔ entries = []
  nameOf?_eq_none_iff : ∀ kind, t.nameOf? kind = none ↔ ∀ name, t.get? name ≠ some kind
  get?_of_nameOf? : ∀ kind name, t.nameOf? kind = some name → t.get? name = some kind
  /-- The same is true of a name that is found in any other order of the bindings. -/
  firstName?_of_perm : ∀ bindings, bindings.Perm t.toList → ∀ kind,
    (firstName? bindings kind = none ↔ ∀ name, t.get? name ≠ some kind) ∧
      ∀ name, firstName? bindings kind = some name → t.get? name = some kind

theorem denotes_ofList (entries : List (String × Int)) : (ofList entries).Denotes entries := by
  -- what can be counted is told by the names, which are those of the entries, each once
  have hperm : ((ofList entries).toList.map Prod.fst).Perm (entries.map Prod.fst).dedup := by
    rw [List.perm_ext_iff_of_nodup (nodup_names _) (List.nodup_dedup _)]
    intro name
    rw [mem_names_ofList, List.mem_dedup]
  have hnone (bindings : List (String × Int)) (h : bindings.Perm (ofList entries).toList)
      (kind : Int) : firstName? bindings kind = none ↔
        ∀ name, (ofList entries).get? name ≠ some kind := by
    rw [firstName?_eq_none_iff]
    simp only [h.mem_iff, ne_eq, get?_eq_some_iff]
  have hsome (bindings : List (String × Int)) (h : bindings.Perm (ofList entries).toList)
      (kind : Int) (name : String) (hname : firstName? bindings kind = some name) :
      (ofList entries).get? name = some kind :=
    get?_eq_some_iff.2 (h.mem_iff.1 (mem_of_firstName?_eq_some hname))
  constructor
  · exact get?_ofList entries
  · intro name
    rw [get?_ofList, lastKind?_eq_none_iff]
  · exact fun _ => rfl
  · exact nodup_names _
  · exact fun _ _ => get?_eq_some_iff.symm
  · rw [size, ← hperm.length_eq, List.length_map]
  · have hnil : (ofList entries).toList = [] ↔ entries.map Prod.fst = [] := by
      rw [← List.map_eq_nil_iff (f := Prod.fst), List.eq_nil_iff_forall_not_mem,
        List.eq_nil_iff_forall_not_mem]
      exact forall_congr' fun name => not_congr (mem_names_ofList entries name)
    rw [isEmpty, List.isEmpty_iff, hnil, List.map_eq_nil_iff]
  · exact hnone _ (List.Perm.refl _)
  · exact hsome _ (List.Perm.refl _)
  · exact fun bindings h kind => ⟨hnone bindings h kind, hsome bindings h kind⟩

/-- A table is the map that its entries denote, and tables are equal where they have the same kinds
for all names. So neither the order of entries for different names makes a difference, nor an entry
for a name that a later one is for. -/
theorem ofList_denotes (entries : List (String × Int)) :
    (ofList entries).Denotes entries ∧
      (∀ others, ofList entries = ofList others ↔
        ∀ name, (ofList entries).get? name = (ofList others).get? name) ∧
      (∀ others, entries.Perm others → (entries.map Prod.fst).Nodup →
        ofList entries = ofList others) ∧
      ∀ before entry after, entries = before ++ entry :: after → entry.1 ∈ after.map Prod.fst →
        ofList (before ++ after) = ofList entries := by
  refine ⟨denotes_ofList entries, fun others => eq_iff, fun others hperm hnodup => ?_, ?_⟩
  · have hothers : (others.map Prod.fst).Nodup := (hperm.map Prod.fst).nodup_iff.1 hnodup
    refine eq_iff.2 fun name => ?_
    rw [get?_ofList, get?_ofList]
    ext kind
    rw [lastKind?_eq_some_iff_of_nodup hnodup, lastKind?_eq_some_iff_of_nodup hothers,
      hperm.mem_iff]
  · rintro before entry after rfl hlater
    refine eq_iff.2 fun name => ?_
    -- the kind in the entry would count only if none behind it had the name
    have hentry : (lastKind? after name).or (lastKind? [entry] name) = lastKind? after name := by
      by_cases hname : entry.1 = name
      · obtain ⟨kind, hkind⟩ := Option.ne_none_iff_exists'.1
          (mt lastKind?_eq_none_iff.1 (not_not.2 (hname ▸ hlater)))
        rw [hkind, Option.some_or]
      · have hnone : lastKind? [entry] name = none := by
          simpa [lastKind?_eq_none_iff] using Ne.symm hname
        rw [hnone, Option.or_none]
    rw [get?_ofList, get?_ofList, lastKind?_append, List.append_cons, lastKind?_append,
      lastKind?_append, ← Option.or_assoc, hentry]

end SymbolTable

end Lexis
