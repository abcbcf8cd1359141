import TestActor.TypeDecl

/-!
# Type tables

A type table holds declared types under their own names, one for each name. Putting a type into the
table takes the place of an earlier type of that name.

## Main statements

* `TypeTable.get?_insert_self`, `TypeTable.get?_insert_of_ne`: an inserted type is found under its
  name, and every other name is answered as before.
* `TypeTable.get?_ofList`: of the types of a name the last one is found.
-/

namespace TestActor

/-- Declared types. Of several under one name the first counts; inserting keeps one of each. -/
structure TypeTable where
  types : List TypeDecl
  deriving DecidableEq

namespace TypeTable

/-- The table without any type. -/
def empty : TypeTable := ⟨[]⟩

/-- The types with another name. -/
def without (name : String) (types : List TypeDecl) : List TypeDecl :=
  types.filter (·.name != name)

theorem mem_without {name : String} {types : List TypeDecl} {decl : TypeDecl} :
    decl ∈ without name types ↔ decl ∈ types ∧ decl.name ≠ name := by
  simp [without]

/-- Leaving out a name that is there leaves fewer types. -/
theorem length_without_lt {name : String} {types : List TypeDecl} {decl : TypeDecl}
    (hm : decl ∈ types) (hn : decl.name = name) : (without name types).length < types.length :=
  List.length_filter_lt_length_iff_exists.mpr ⟨decl, hm, by simp [hn]⟩

/-- Looking up another name does not see that a name was left out. -/
theorem find?_without_of_ne {name other : String} (types : List TypeDecl) (h : other ≠ name) :
    (without name types).find? (·.name == other) = types.find? (·.name == other) := by
  rw [without, List.find?_filter]
  congr 1
  funext t
  by_cases ht : t.name = other
  · simp [ht, h]
  · simp [ht]

/-- A name that was left out is not found, and every other name as before. -/
theorem find?_without (name other : String) (types : List TypeDecl) :
    (without name types).find? (·.name == other)
      = if other = name then none else types.find? (·.name == other) := by
  split
  · next h => exact List.find?_eq_none.mpr fun t ht => by simpa [h] using (mem_without.mp ht).2
  · next h => exact find?_without_of_ne types h

theorem find?_without_self (name : String) (types : List TypeDecl) :
    (without name types).find? (·.name == name) = none := by
  rw [find?_without, if_pos rfl]

/-- Puts a declared type under its name, in the place of an earlier one. -/
def insert (table : TypeTable) (decl : TypeDecl) : TypeTable :=
  ⟨decl :: without decl.name table.types⟩

/-- The table of the given types; a later one takes the place of an earlier one. -/
def ofList (decls : List TypeDecl) : TypeTable :=
  decls.foldl insert empty

/-- The declared type of a name. -/
def get? (table : TypeTable) (name : String) : Option TypeDecl :=
  table.types.find? (·.name == name)

/-- Is a type of this name declared? -/
def contains (table : TypeTable) (name : String) : Bool :=
  (table.get? name).isSome

/-- What `get?` finds has the name that was asked for. -/
theorem name_of_get? {table : TypeTable} {name : String} {decl : TypeDecl}
    (h : table.get? name = some decl) : decl.name = name := by
  simpa using List.find?_some h

/-- The inserted type is found under its name. -/
theorem get?_insert_self (table : TypeTable) (decl : TypeDecl) :
    (table.insert decl).get? decl.name = some decl := by
  simp [get?, insert]

/-- Under any other name the table is as it was. -/
theorem get?_insert_of_ne (table : TypeTable) {decl : TypeDecl} {name : String}
    (h : name ≠ decl.name) : (table.insert decl).get? name = table.get? name := by
  have hd : (decl.name == name) = false := by simpa using fun e => h e.symm
  rw [get?, insert, List.find?_cons, hd]
  exact find?_without_of_ne table.types h

/-- Of the types that are inserted under a name the last one is found. -/
theorem get?_foldl_insert (table : TypeTable) (decls : List TypeDecl) (name : String) :
    (decls.foldl insert table).get? name
      = (decls.filter (·.name == name)).getLast?.or (table.get? name) := by
  induction decls generalizing table with
  | nil => simp
  | cons decl rest ih =>
    rw [List.foldl_cons, ih]
    by_cases h : decl.name = name
    · subst h
      rw [get?_insert_self, List.filter_cons_of_pos (by simp), List.getLast?_cons]
      cases (rest.filter (·.name == decl.name)).getLast? <;> rfl
    · rw [get?_insert_of_ne table (Ne.symm h), List.filter_cons_of_neg (by simpa using h)]

/-- **A table of a list has the last type of each name.** -/
theorem get?_ofList (decls : List TypeDecl) (name : String) :
    (ofList decls).get? name = (decls.filter (·.name == name)).getLast? := by
  rw [ofList, get?_foldl_insert]
  exact Option.or_none

end TypeTable

end TestActor
