import TestActor.Descriptor

/-!
# Methods seen from a type

The declaration of a method that is seen from a type is declared by one of the types of the
ancestry. Looked up from there it is found again, so that asking for the declaring type first and
for the parameters from that type afterwards cannot lose the method.

## Main statements

* `TypeTable.get?_of_mem_ancestry`: a type of an ancestry is the one found under its name.
* `TypeTable.findMethod_declaring`: a method is found again from the type that declares it.
* `Descriptor.resolve_of_findMethod`: the descriptor of a method that is seen from a type.
-/

namespace TestActor

namespace TypeTable

variable {table : TypeTable} {name method : String} {decl owner : TypeDecl} {found : MethodDecl}

/-- What a lineage passes is found under its name among all types. -/
theorem find?_of_mem_lineage {types : List TypeDecl} {name : String} {decl : TypeDecl}
    (h : decl ∈ lineage types name) : types.find? (·.name == decl.name) = some decl := by
  fun_induction lineage types name with
  | case1 => simp at h
  | case2 types name first hfirst ih =>
    have hname : first.name = name := by simpa using List.find?_some hfirst
    rcases List.mem_cons.mp h with rfl | h
    · rw [hname]
      exact hfirst
    · cases hp : first.parent with
      | none => simp [hp] at h
      | some parent =>
        simp only [hp] at h
        have hrest := ih parent h
        -- the walk goes on without `name`, so `decl` has another name
        have hne : decl.name ≠ name := (mem_without.mp (List.mem_of_find?_eq_some hrest)).2
        rw [← find?_without_of_ne types hne]
        exact hrest

/-- **A type of an ancestry is the one found under its name.** -/
theorem get?_of_mem_ancestry (h : decl ∈ table.ancestry name) :
    table.get? decl.name = some decl :=
  find?_of_mem_lineage h

theorem exists_ancestry_eq_cons (h : table.get? name = some decl) :
    ∃ above, table.ancestry name = decl :: above := by
  rw [ancestry, lineage_of_find?_eq_some h]
  exact ⟨_, rfl⟩

/-- What is found is declared by the nearest type that declares the method. -/
theorem exists_nearest_of_findMethod (h : table.findMethod name method = some (owner, found)) :
    ∃ before after, table.ancestry name = before ++ owner :: after ∧
      (∀ decl ∈ before, decl.method? method = none) ∧ owner.method? method = some found := by
  obtain ⟨before, decl, after, hsplit, hdecl, hbefore⟩ := List.findSome?_eq_some_iff.mp h
  obtain ⟨m, hm, heq⟩ := Option.map_eq_some_iff.mp hdecl
  obtain ⟨rfl, rfl⟩ := Prod.mk.inj heq
  exact ⟨before, after, hsplit, fun t ht => by simpa using hbefore t ht, hm⟩

theorem findMethod_of_declared (h : table.get? name = some decl)
    (hm : decl.method? method = some found) :
    table.findMethod name method = some (decl, found) := by
  obtain ⟨above, habove⟩ := exists_ancestry_eq_cons h
  rw [findMethod, habove, List.findSome?_cons, hm]
  rfl

/-- The type that declares a method is one of the ancestry. -/
theorem mem_ancestry_of_findMethod (h : table.findMethod name method = some (owner, found)) :
    owner ∈ table.ancestry name := by
  obtain ⟨before, after, hsplit, -, -⟩ := exists_nearest_of_findMethod h
  rw [hsplit]
  exact List.mem_append_right before List.mem_cons_self

/-- **A method is found again from the type that declares it.** -/
theorem findMethod_declaring (h : table.findMethod name method = some (owner, found)) :
    table.findMethod owner.name method = some (owner, found) := by
  obtain ⟨-, -, -, -, hm⟩ := exists_nearest_of_findMethod h
  exact findMethod_of_declared (get?_of_mem_ancestry (mem_ancestry_of_findMethod h)) hm

end TypeTable

namespace Descriptor

/-- **The descriptor of a method that is seen**: its declaring type, its own parameters, and the
documentation found from the declaring type. -/
theorem resolve_of_findMethod {table : TypeTable} {type method : String} {owner : TypeDecl}
    {found : MethodDecl} (h : table.findMethod type method = some (owner, found)) :
    resolve table.introspector type method
      = some ⟨owner.name, method, found.parameters,
          DocComment.text (rawDoc table.introspector owner.name method)⟩ := by
  have howner : table.introspector.declaringType type method = some owner.name := by
    show (table.findMethod type method).map _ = _
    rw [h]
    rfl
  have hparams : table.introspector.parameters owner.name method = some found.parameters := by
    show (table.findMethod owner.name method).map _ = _
    rw [TypeTable.findMethod_declaring h]
    rfl
  rw [resolve, howner, Option.bind_eq_bind, Option.bind_some, hparams]
  rfl

end Descriptor

end TestActor
