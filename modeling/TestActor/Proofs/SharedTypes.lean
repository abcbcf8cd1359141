import Mathlib.Data.List.Find
import TestActor.Proofs.Lookup

/-!
# Types that two tables share

Two type tables that declare the same under some names answer alike from any type of these names, as
long as a type of these names refers to no other ones. A walk along an ancestry goes from a type to
its parent, so nothing else is asked for on the way, also where the walk ends because the parent is
not declared or was passed already. Besides, a descriptor needs the interfaces of the declaring type.

## Main definition

* `TypeTable.AgreesOn`: two tables declare the same under some names, and parents stay among them.

## Main statements

* `TypeTable.AgreesOn.ancestry`: a type has the same ancestry.
* `TypeTable.AgreesOn.findMethod`: the same declaration of a method is seen from it.
* `TypeTable.AgreesOn.resolve`: so the same descriptor is found.
-/

namespace TestActor

namespace TypeTable

variable {Shared : String → Prop} {types others : List TypeDecl} {table other : TypeTable}
  {name method : String} {decl : TypeDecl}

/-! ## Lineages -/

theorem find?_of_find?_without {n : String}
    (h : (without name types).find? (·.name == n) = some decl) :
    n ≠ name ∧ types.find? (·.name == n) = some decl := by
  have hn : decl.name = n := by simpa using List.find?_some h
  have hne : n ≠ name := hn ▸ (mem_without.mp (List.mem_of_find?_eq_some h)).2
  exact ⟨hne, (find?_without_of_ne types hne).symm.trans h⟩

/-- **Types with the same declarations under some names have the same lineage from there**, when
parents of these names stay among them. -/
theorem lineage_congr
    (hsame : ∀ n, Shared n → others.find? (·.name == n) = types.find? (·.name == n))
    (hparent : ∀ n decl parent, Shared n → types.find? (·.name == n) = some decl →
      decl.parent = some parent → Shared parent)
    (hname : Shared name) : lineage others name = lineage types name := by
  fun_induction lineage types name generalizing others with
  | case1 types name hnone => exact lineage_of_find?_eq_none ((hsame name hname).trans hnone)
  | case2 types name decl hfound ih =>
    rw [lineage_of_find?_eq_some ((hsame name hname).trans hfound)]
    cases hp : decl.parent with
    | none => rfl
    | some parent =>
      -- the walk goes on without `name`, in both lists
      refine congrArg (decl :: ·) (ih parent ?_ ?_ (hparent name decl parent hname hfound hp))
      · exact fun n hn => by rw [find?_without, find?_without, hsame n hn]
      · exact fun n d p hn hd => hparent n d p hn (find?_of_find?_without hd).2

/-- Types of a lineage have names among those that parents do not leave. -/
theorem shared_of_mem_lineage
    (hparent : ∀ n decl parent, Shared n → types.find? (·.name == n) = some decl →
      decl.parent = some parent → Shared parent)
    (hname : Shared name) (h : decl ∈ lineage types name) : Shared decl.name := by
  fun_induction lineage types name with
  | case1 => simp at h
  | case2 types name first hfound ih =>
    rcases List.mem_cons.mp h with rfl | h
    · have hn : decl.name = name := by simpa using List.find?_some hfound
      rw [hn]
      exact hname
    · cases hp : first.parent with
      | none => simp [hp] at h
      | some parent =>
        simp only [hp] at h
        refine ih parent ?_ (hparent name first parent hname hfound hp) h
        exact fun n d p hn hd => hparent n d p hn (find?_of_find?_without hd).2

/-! ## Tables -/

theorem exists_of_mem_interfaces {interface : String} (h : interface ∈ table.interfaces name) :
    ∃ decl, table.get? name = some decl ∧ interface ∈ decl.interfaces := by
  unfold interfaces at h
  split at h
  · simp at h
  · next decl hdecl => exact ⟨decl, hdecl, h⟩

/-- The other table declares the same types under the shared names, and the parents that these types
name are shared. -/
structure AgreesOn (Shared : String → Prop) (table other : TypeTable) : Prop where
  get? : ∀ name, Shared name → other.get? name = table.get? name
  parent : ∀ name decl parent, Shared name → table.get? name = some decl →
    decl.parent = some parent → Shared parent

namespace AgreesOn

variable (h : AgreesOn Shared table other) (hname : Shared name)

include h hname

/-- **A shared name has the same ancestry.** -/
theorem ancestry : other.ancestry name = table.ancestry name :=
  lineage_congr h.get? h.parent hname

theorem contains : other.contains name = table.contains name := by
  rw [TypeTable.contains, TypeTable.contains, h.get? name hname]

theorem shared_of_mem_ancestry (hmem : decl ∈ table.ancestry name) : Shared decl.name :=
  shared_of_mem_lineage h.parent hname hmem

/-- **The same declaration of a method is seen from a shared name.** -/
theorem findMethod : other.findMethod name method = table.findMethod name method := by
  rw [TypeTable.findMethod, TypeTable.findMethod, h.ancestry hname]

/-- The type that declares a method seen from a shared name has a shared name, too. -/
theorem shared_of_findMethod {owner : TypeDecl} {found : MethodDecl}
    (hfound : table.findMethod name method = some (owner, found)) : Shared owner.name :=
  h.shared_of_mem_ancestry hname (mem_ancestry_of_findMethod hfound)

theorem declaringType : other.declaringType name method = table.declaringType name method := by
  rw [TypeTable.declaringType, TypeTable.declaringType, h.findMethod hname]

theorem parameters : other.parameters name method = table.parameters name method := by
  rw [TypeTable.parameters, TypeTable.parameters, h.findMethod hname]

theorem documentation : other.documentation name method = table.documentation name method := by
  rw [TypeTable.documentation, TypeTable.documentation, h.findMethod hname]

theorem hasMethod :
    other.introspector.hasMethod name method = table.introspector.hasMethod name method :=
  congrArg Option.isSome (h.declaringType hname)

theorem interfaces : other.interfaces name = table.interfaces name := by
  rw [TypeTable.interfaces, TypeTable.interfaces, h.get? name hname]

theorem parentOf : other.parent name = table.parent name := by
  rw [TypeTable.parent, TypeTable.parent, h.get? name hname]

/-! ## Descriptors -/

theorem parentDoc :
    Descriptor.parentDoc other.introspector name method
      = Descriptor.parentDoc table.introspector name method := by
  have hparent : other.introspector.parent name = table.introspector.parent name :=
    h.parentOf hname
  unfold Descriptor.parentDoc
  rw [hparent]
  cases hp : table.introspector.parent name with
  | none => rfl
  | some parent =>
    obtain ⟨decl, hdecl, hp⟩ := Option.bind_eq_some_iff.mp hp
    have hshared := h.parent name decl parent hname hdecl hp
    have hdoc : other.introspector.documentation parent method
        = table.introspector.documentation parent method := h.documentation hshared
    simp only [h.hasMethod hshared, hdoc]

variable (hinterfaces : ∀ name decl interface, Shared name → table.get? name = some decl →
  interface ∈ decl.interfaces → Shared interface)

include hinterfaces

theorem interfaceDoc :
    Descriptor.interfaceDoc other.introspector name method
      = Descriptor.interfaceDoc table.introspector name method := by
  have hlisted : other.introspector.interfaces name = table.introspector.interfaces name :=
    h.interfaces hname
  have hshared : ∀ interface ∈ table.introspector.interfaces name, Shared interface := by
    intro interface hmem
    obtain ⟨decl, hdecl, hmem⟩ := exists_of_mem_interfaces hmem
    exact hinterfaces name decl interface hname hdecl hmem
  have hfirst : (table.introspector.interfaces name).find? (other.introspector.hasMethod · method)
      = (table.introspector.interfaces name).find? (table.introspector.hasMethod · method) :=
    List.find?_congr fun interface hmem => h.hasMethod (hshared interface hmem)
  unfold Descriptor.interfaceDoc
  rw [hlisted, hfirst]
  cases hfound : (table.introspector.interfaces name).find?
      (table.introspector.hasMethod · method) with
  | none => rfl
  | some interface =>
    have hdoc : other.introspector.documentation interface method
        = table.introspector.documentation interface method :=
      h.documentation (hshared interface (List.mem_of_find?_eq_some hfound))
    simp only [hdoc]

theorem rawDoc :
    Descriptor.rawDoc other.introspector name method
      = Descriptor.rawDoc table.introspector name method := by
  have hdoc : other.introspector.documentation name method
      = table.introspector.documentation name method := h.documentation hname
  unfold Descriptor.rawDoc
  rw [hdoc, h.interfaceDoc hname hinterfaces, h.parentDoc hname]

/-- **The same descriptor is found from a shared name**, when interfaces of shared names are shared
as parents are. -/
theorem resolve :
    Descriptor.resolve other.introspector name method
      = Descriptor.resolve table.introspector name method := by
  cases hfound : table.findMethod name method with
  | none =>
    have hnone : ∀ {t : TypeTable}, t.findMethod name method = none →
        Descriptor.resolve t.introspector name method = none := by
      intro t ht
      have hdeclaring : t.introspector.declaringType name method = none := by
        show (t.findMethod name method).map _ = none
        rw [ht]
        rfl
      rw [Descriptor.resolve, hdeclaring]
      rfl
    rw [hnone hfound, hnone ((h.findMethod hname).trans hfound)]
  | some seen =>
    obtain ⟨owner, found⟩ := seen
    have howner := h.shared_of_findMethod hname hfound
    rw [Descriptor.resolve_of_findMethod hfound,
      Descriptor.resolve_of_findMethod ((h.findMethod hname).trans hfound),
      h.rawDoc howner hinterfaces]

end AgreesOn

end TypeTable

end TestActor
