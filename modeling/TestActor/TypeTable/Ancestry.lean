import TestActor.TypeTable

/-!
# Ancestry

The ancestry of a type is the type itself with the types above it. Along it the declaration of a
method is found that is seen from the type: the nearest one.

## The walk

The walk takes a declared type, leaves it out of the types that may still come, and goes on to its
parent. So it stops at a type without a parent, at a parent that is not declared, and at a parent
that has been passed already: a chain that closes on itself is cut where it closes.

## Termination

`TypeTable.lineage` walks with fewer types at every step.
-/

namespace TestActor

namespace TypeTable

/-! ## Ancestry -/

/-- The declared types from `name` upwards, as far as they are among `types` and not yet passed. -/
def lineage (types : List TypeDecl) (name : String) : List TypeDecl :=
  match _found : types.find? (·.name == name) with
  | none => []
  | some decl =>
    decl :: (match decl.parent with
      | none => []
      | some parent => lineage (without name types) parent)
termination_by types.length
decreasing_by
  exact length_without_lt (List.mem_of_find?_eq_some _found) (by simpa using List.find?_some _found)

/-- The type and its ancestors, nearest first. -/
def ancestry (table : TypeTable) (name : String) : List TypeDecl :=
  lineage table.types name

theorem lineage_of_find?_eq_none {types : List TypeDecl} {name : String}
    (h : types.find? (·.name == name) = none) : lineage types name = [] := by
  rw [lineage]
  split
  · rfl
  · simp_all

theorem lineage_of_find?_eq_some {types : List TypeDecl} {name : String} {decl : TypeDecl}
    (h : types.find? (·.name == name) = some decl) :
    lineage types name = decl :: (match decl.parent with
      | none => []
      | some parent => lineage (without name types) parent) := by
  rw [lineage]
  split
  · simp_all
  · simp_all

/-- Every type of a lineage is one of the types that it was read from. -/
theorem mem_of_mem_lineage {types : List TypeDecl} {name : String} {decl : TypeDecl}
    (h : decl ∈ lineage types name) : decl ∈ types := by
  fun_induction lineage types name with
  | case1 => simp at h
  | case2 types name d hd ih =>
    rcases List.mem_cons.mp h with rfl | h
    · exact List.mem_of_find?_eq_some hd
    · cases hp : d.parent with
      | none => simp [hp] at h
      | some p =>
        simp only [hp] at h
        exact (mem_without.mp (ih p h)).1

/-! ## Methods -/

/-- The declaration of a method that is seen from a type, with the type that declares it: the
nearest one along the ancestry. -/
def findMethod (table : TypeTable) (name method : String) : Option (TypeDecl × MethodDecl) :=
  (table.ancestry name).findSome? fun decl => (decl.method? method).map (decl, ·)

/-- The name of the type that declares the method seen from `name`. -/
def declaringType (table : TypeTable) (name method : String) : Option String :=
  (table.findMethod name method).map (·.1.name)

/-- The parameters of the method seen from `name`. -/
def parameters (table : TypeTable) (name method : String) : Option (List Parameter) :=
  (table.findMethod name method).map (·.2.parameters)

/-- The documentation of the method seen from `name`, empty when its declaration has none. -/
def documentation (table : TypeTable) (name method : String) : Option String :=
  (table.findMethod name method).map (·.2.documentation)

/-- The interfaces that a type names itself; a type that is not declared names none. -/
def interfaces (table : TypeTable) (name : String) : List String :=
  match table.get? name with
  | none => []
  | some decl => decl.interfaces

/-- The parent that a declared type names. -/
def parent (table : TypeTable) (name : String) : Option String :=
  (table.get? name).bind (·.parent)

end TypeTable

end TestActor
