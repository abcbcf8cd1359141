import TestActor.Proofs.ParentPaths

/-!
# Types put into a table

The walk along an ancestry asks the table for the type that it begins with and for the parents that
it is told. Whatever is put under any other name makes no difference to it, however the new type is
related to the types on the way: it may be above or below them in another table, or close a circle.
What is put under a name that is asked for is seen, unless it is the type that is there already.

## Main definitions

* `TypeTable.asked`: the names that a walk asks for.
* `TypeTable.IsAside`: a name that is not on an ancestry, nor where it begins or stops.

## Main statements

* `TypeTable.isAside_iff`: these are the names that are not asked for.
* `TypeTable.AgreesOn.of_insertions`: what is inserted under other names makes no difference.
* `TypeTable.ancestry_insert_eq_iff`: when an ancestry is as it was.
* `TypeTable.inserted_aside`: this with all lookups, and what a table has after insertions.
-/

namespace TestActor

namespace TypeTable

variable {table : TypeTable} {name other : String} {decl : TypeDecl}

/-! ## Names that are asked for -/

/-- The names that a walk asks the table for: the one that it begins with, and the parents of the
types that it passes. -/
def asked (table : TypeTable) (name : String) : List String :=
  name :: (table.ancestry name).filterMap (·.parent)

theorem mem_asked_iff :
    other ∈ table.asked name ↔
      other = name ∨ ∃ below ∈ table.ancestry name, below.parent = some other := by
  rw [asked, List.mem_cons, List.mem_filterMap]

theorem self_mem_asked (table : TypeTable) (name : String) : name ∈ table.asked name :=
  List.mem_cons_self

/-- What is found under a name that is asked for is in the ancestry. -/
theorem mem_ancestry_of_mem_asked (h : other ∈ table.asked name)
    (hget : table.get? other = some decl) : decl ∈ table.ancestry name := by
  rcases mem_asked_iff.mp h with rfl | ⟨below, hbelow, hparent⟩
  · exact mem_ancestry_iff.mpr (.self hget)
  · refine mem_ancestry_of_parentDecl? hbelow ?_
    rw [parentDecl?, hparent]
    exact hget

/-- The types of an ancestry are asked for. -/
theorem name_mem_asked (h : decl ∈ table.ancestry name) : decl.name ∈ table.asked name := by
  rw [mem_asked_iff]
  cases mem_ancestry_iff.mp h with
  | self hget => exact .inl (name_of_get? hget)
  | @parent below _ hbelow habove =>
    obtain ⟨parent, hparent, hget⟩ := Option.bind_eq_some_iff.mp habove
    rw [name_of_get? hget]
    exact .inr ⟨below, mem_ancestry_iff.mpr hbelow, hparent⟩

/-! ## Names aside -/

/-- The parent at which an ancestry stops because it is not declared. -/
def missingParent? (table : TypeTable) (name : String) : Option String :=
  ((table.ancestry name).getLast?.bind (·.parent)).filter (!table.contains ·)

/-- A name that an ancestry does not come across: it is not where the ancestry begins, no type on
the way has it, and it is not the missing parent at which the ancestry stops. -/
structure IsAside (table : TypeTable) (name other : String) : Prop where
  ne : other ≠ name
  not_mem : other ∉ (table.ancestry name).map (·.name)
  not_missing : table.missingParent? name ≠ some other

/-- Only the last type of an ancestry can have a parent that is not declared. -/
theorem getLast?_ancestry_of_missing (h : decl ∈ table.ancestry name)
    (hparent : decl.parent = some other) (hmissing : table.get? other = none) :
    (table.ancestry name).getLast? = some decl := by
  obtain ⟨before, after, hsplit⟩ := List.append_of_mem h
  cases after with
  | nil => rw [hsplit, List.getLast?_concat]
  | cons above after =>
    have hlinked := (isWholePath_ancestry table name).linked
    rw [hsplit] at hlinked
    have habove := (List.isChain_cons_cons.mp (List.isChain_append.mp hlinked).2.1).1
    rw [parentDecl?, hparent, Option.bind_some, hmissing] at habove
    cases habove

/-- **The names aside are those that are not asked for.** -/
theorem isAside_iff : table.IsAside name other ↔ other ∉ table.asked name := by
  constructor
  · rintro ⟨hne, hnew, hstop⟩ hasked
    obtain ⟨below, hbelow, hparent⟩ := (mem_asked_iff.mp hasked).resolve_left hne
    cases hget : table.get? other with
    | some decl =>
      rw [← name_of_get? hget] at hnew
      exact hnew (List.mem_map_of_mem (mem_ancestry_of_mem_asked hasked hget))
    | none =>
      refine hstop ?_
      rw [missingParent?, getLast?_ancestry_of_missing hbelow hparent hget, Option.bind_some,
        hparent, Option.filter_some, if_pos (by rw [contains, hget]; rfl)]
  · intro h
    refine ⟨fun hname => h (mem_asked_iff.mpr (.inl hname)), fun hmem => ?_, fun hstop => ?_⟩
    · obtain ⟨decl, hdecl, rfl⟩ := List.mem_map.mp hmem
      exact h (name_mem_asked hdecl)
    · obtain ⟨hparent, -⟩ := Option.filter_eq_some_iff.mp hstop
      obtain ⟨last, hlast, hparent⟩ := Option.bind_eq_some_iff.mp hparent
      exact h (mem_asked_iff.mpr (.inr ⟨last, List.mem_of_getLast? hlast, hparent⟩))

/-! ## Insertions -/

/-- **What is inserted under other names makes no difference** to the names that are asked for. -/
theorem AgreesOn.of_insertions (decls : List TypeDecl)
    (h : ∀ decl ∈ decls, table.IsAside name decl.name) :
    AgreesOn (· ∈ table.asked name) table (decls.foldl insert table) where
  get? other hother := by
    have hnone : decls.filter (·.name == other) = [] := by
      refine List.filter_eq_nil_iff.mpr fun decl hdecl hname => ?_
      exact isAside_iff.mp (h decl hdecl) ((beq_iff_eq.mp hname).symm ▸ hother)
    rw [get?_foldl_insert, hnone, List.getLast?_nil, Option.none_or]
  parent other decl parent hother hget hparent :=
    mem_asked_iff.mpr (.inr ⟨decl, mem_ancestry_of_mem_asked hother hget, hparent⟩)

theorem AgreesOn.of_insertion (h : table.IsAside name decl.name) :
    AgreesOn (· ∈ table.asked name) table (table.insert decl) :=
  AgreesOn.of_insertions [decl] (by simpa using h)

/-- A type that is there already makes no difference when it is inserted again. -/
theorem AgreesOn.of_insertion_again (h : table.get? decl.name = some decl) :
    AgreesOn (fun _ => True) table (table.insert decl) where
  get? other _ := by
    by_cases hname : other = decl.name
    · rw [hname, get?_insert_self, h]
    · exact get?_insert_of_ne table hname
  parent _ _ _ _ _ _ := trivial

/-- A type that is inserted under a name that is asked for is in the new ancestry, if the old
ancestry is left as it was. -/
theorem mem_ancestry_insert (h : decl.name ∈ table.asked name)
    (hsame : (table.insert decl).ancestry name = table.ancestry name) :
    decl ∈ (table.insert decl).ancestry name := by
  refine mem_ancestry_of_mem_asked ?_ (get?_insert_self table decl)
  rw [asked, hsame]
  exact h

/-- **An ancestry is as it was after an insertion** exactly when the inserted type is on it already,
or its name is aside. -/
theorem ancestry_insert_eq_iff :
    (table.insert decl).ancestry name = table.ancestry name ↔
      decl ∈ table.ancestry name ∨ table.IsAside name decl.name := by
  constructor
  · intro hsame
    by_cases hasked : decl.name ∈ table.asked name
    · have hmem := mem_ancestry_insert hasked hsame
      rw [hsame] at hmem
      exact .inl hmem
    · exact .inr (isAside_iff.mpr hasked)
  · rintro (hmem | haside)
    · exact (AgreesOn.of_insertion_again (get?_of_mem_ancestry hmem)).ancestry trivial
    · exact (AgreesOn.of_insertion haside).ancestry (self_mem_asked table name)

/-- From a name the same is seen in both tables. -/
structure SeesAlike (table later : TypeTable) (name : String) : Prop where
  ancestry : later.ancestry name = table.ancestry name
  findMethod : ∀ method, later.findMethod name method = table.findMethod name method
  declaringType : ∀ method, later.introspector.declaringType name method
    = table.introspector.declaringType name method
  parameters : ∀ method, later.introspector.parameters name method
    = table.introspector.parameters name method
  documentation : ∀ method, later.introspector.documentation name method
    = table.introspector.documentation name method

theorem AgreesOn.seesAlike {Shared : String → Prop} {later : TypeTable}
    (h : AgreesOn Shared table later) (hname : Shared name) : SeesAlike table later name where
  ancestry := h.ancestry hname
  findMethod _ := h.findMethod hname
  declaringType _ := h.declaringType hname
  parameters _ := h.parameters hname
  documentation _ := h.documentation hname

/-- **Inserting a type is local.** What is seen from a name is as it was when the inserted type has
a name aside: the ancestry, and of each method the declaration, the type that declares it, the
parameters and the documentation. The ancestry is as it was in no other case, but for a type that is
on it already. After insertions a table has the last inserted type of each name, and what it had
before under the names without one. -/
theorem inserted_aside (table : TypeTable) (name : String) :
    (∀ decl, table.IsAside name decl.name → SeesAlike table (table.insert decl) name) ∧
    (∀ decl, (table.insert decl).ancestry name = table.ancestry name ↔
      decl ∈ table.ancestry name ∨ table.IsAside name decl.name) ∧
    ∀ (decls : List TypeDecl) (other : String), (decls.foldl insert table).get? other
      = (decls.filter (·.name == other)).getLast?.or (table.get? other) := by
  refine ⟨fun decl haside => ?_, fun _ => ancestry_insert_eq_iff, get?_foldl_insert table⟩
  exact (AgreesOn.of_insertion haside).seesAlike (self_mem_asked table name)

/-- An ancestry that stops at a parent that is not declared. A type below it may be replaced by one
that is beside it and declares the same method; the missing parent is seen when it is declared. -/
theorem inserted_aside_below_missing :
    let leaf : TypeDecl := { name := "Leaf", parent := some "Middle" }
    let middle : TypeDecl :=
      { name := "Middle", parent := some "Missing", methods := [{ name := "look" }] }
    let near : TypeDecl :=
      { name := "Near", parent := some "Middle", methods := [{ name := "look", doc := some "" }] }
    let missing : TypeDecl := { name := "Missing", parent := some "Leaf" }
    let table := ofList [leaf, middle, { name := "Near", parent := some "Leaf" }]
    SeesAlike table (table.insert near) "Leaf" ∧
      (table.insert near).findMethod "Leaf" "look" = some (middle, { name := "look" }) ∧
      (table.insert missing).ancestry "Leaf" ≠ table.ancestry "Leaf" ∧
      ([near, missing, near].foldl insert table).get? "Near" = some near := by
  intro leaf middle near missing table
  obtain ⟨haside, hiff, hget⟩ := inserted_aside table "Leaf"
  have halike : SeesAlike table (table.insert near) "Leaf" :=
    haside near ⟨by decide, by decide +kernel, by decide +kernel⟩
  refine ⟨halike, (halike.findMethod "look").trans (by decide +kernel), fun hsame => ?_,
    hget [near, missing, near] "Near"⟩
  rcases (hiff missing).mp hsame with hmem | hbeside
  · exact absurd hmem (by decide +kernel)
  · exact hbeside.not_missing (by decide +kernel)

end TypeTable

end TestActor
