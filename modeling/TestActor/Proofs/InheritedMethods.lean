import TestActor.Proofs.SharedTypes

/-!
# Methods inherited from a parent

A type either declares a method itself, or it has the method from its parent. The lookup of a method
walks along the ancestry instead, and where parents form a circle the walk from a type is not the
type followed by the walk from its parent: each of the two walks is cut where it comes back to its
own beginning. But the walk from the parent can only come back to the type as its last one, and a
type that does not declare the method makes no difference there.

## Main definition

* `TypeTable.IsInherited`: answers about methods that a type gives by its own declaration or has from
  its parent.

## Main statements

* `TypeTable.lineage_without_of_parent`: what a walk from a parent passes besides.
* `TypeTable.lookups_inherited`: all lookups of methods are answered in this way.
-/

namespace TestActor

namespace TypeTable

variable {types : List TypeDecl} {table : TypeTable} {name method parent start : String}
  {decl : TypeDecl} {α β : Type}

/-! ## Walks without a type -/

theorem without_comm (name other : String) (types : List TypeDecl) :
    without name (without other types) = without other (without name types) := by
  simp only [without, List.filter_filter, Bool.and_comm]

theorem find?_without_eq_none {n : String} (h : types.find? (·.name == n) = none) :
    (without name types).find? (·.name == n) = none := by
  rw [find?_without, h, ite_self]

/-- **What a walk from the parent of a type passes besides**, compared with the same walk without the
type: at most the type itself, as the last one. The walk begins at the parent, or the parent was
passed on the way. -/
theorem lineage_without_of_parent (hdecl : types.find? (·.name == name) = some decl)
    (hparent : decl.parent = some parent)
    (hstart : start = parent ∨ types.find? (·.name == parent) = none) :
    ∃ last, (last = [] ∨ last = [decl]) ∧
      lineage types start = lineage (without name types) start ++ last := by
  fun_induction lineage types start with
  | case1 types start hnone =>
    exact ⟨[], .inl rfl, by rw [lineage_of_find?_eq_none (find?_without_eq_none hnone)]; rfl⟩
  | case2 types start first hfirst ih =>
    -- behind `start` the parent is not found any more
    have hpassed : (without start types).find? (·.name == parent) = none := by
      rcases hstart with rfl | hnone
      · exact find?_without_self start types
      · exact find?_without_eq_none hnone
    by_cases hname : start = name
    · subst hname
      obtain rfl : first = decl := Option.some.inj (hfirst.symm.trans hdecl)
      refine ⟨[first], .inr rfl, ?_⟩
      rw [lineage_of_find?_eq_none (find?_without_self start types), hparent]
      show first :: lineage (without start types) parent = _
      rw [lineage_of_find?_eq_none hpassed]
      rfl
    · have hrest : (without name types).find? (·.name == start) = some first :=
        (find?_without_of_ne types hname).trans hfirst
      rw [lineage_of_find?_eq_some hrest]
      cases hp : first.parent with
      | none => exact ⟨[], .inl rfl, rfl⟩
      | some next =>
        have hlater : (without start types).find? (·.name == name) = some decl :=
          (find?_without_of_ne types (Ne.symm hname)).trans hdecl
        obtain ⟨last, hlast, hwalk⟩ := ih next hlater (.inr hpassed)
        refine ⟨last, hlast, ?_⟩
        show first :: lineage (without start types) next
          = first :: lineage (without start (without name types)) next ++ last
        rw [hwalk, without_comm name start types]
        rfl

/-- A search along the ancestry of a parent does not miss a type in which nothing is found. -/
theorem findSome?_above {f : TypeDecl → Option α} (h : table.get? name = some decl)
    (hparent : decl.parent = some parent) (hf : f decl = none) :
    (lineage (without name table.types) parent).findSome? f
      = (table.ancestry parent).findSome? f := by
  obtain ⟨last, hlast, hwalk⟩ := lineage_without_of_parent h hparent (.inl rfl)
  have hnone : last.findSome? f = none := by
    rcases hlast with rfl | rfl
    · rfl
    · rw [List.findSome?_cons, hf]
      rfl
  rw [ancestry, hwalk, List.findSome?_append, hnone, Option.or_none]

/-! ## Lookups -/

/-- The parent of a declared type, if that is declared as well. -/
def declaredParent? (table : TypeTable) (decl : TypeDecl) : Option String :=
  decl.parent.filter table.contains

/-- Answers about the methods of declared types. The answer is the type's own when the type declares
the method itself, otherwise it is that of its parent, and without a declared parent it is that for
a method that is not there. -/
def IsInherited (table : TypeTable) (answer : String → String → α)
    (own : TypeDecl → MethodDecl → α) (absent : α) : Prop :=
  ∀ name decl method, table.get? name = some decl →
    answer name method = match decl.method? method with
      | some found => own decl found
      | none => match table.declaredParent? decl with
        | some parent => answer parent method
        | none => absent

/-- What is read off inherited answers is inherited. -/
theorem IsInherited.map {answer : String → String → α} {own : TypeDecl → MethodDecl → α}
    {absent : α} (h : table.IsInherited answer own absent) (read : α → β) :
    table.IsInherited (fun name method => read (answer name method))
      (fun decl found => read (own decl found)) (read absent) := by
  intro name decl method hdecl
  simp only [h name decl method hdecl]
  split
  · rfl
  · split <;> rfl

theorem findMethod_of_not_declared (h : table.get? name = some decl)
    (hm : decl.method? method = none) :
    table.findMethod name method = decl.parent.bind (table.findMethod · method) := by
  rw [findMethod, ancestry, lineage_of_find?_eq_some h, List.findSome?_cons, hm]
  cases hp : decl.parent with
  | none => rfl
  | some parent => exact findSome?_above h hp (by rw [hm]; rfl)

theorem findMethod_of_not_contains (h : ¬ table.contains name = true) :
    table.findMethod name method = none := by
  have hnone : table.get? name = none := by simpa [contains] using h
  rw [findMethod, ancestry, lineage_of_find?_eq_none hnone]
  rfl

/-- **The declaration that is seen from a type is its own or inherited**, on circles of parents,
too. -/
theorem findMethod_inherited (table : TypeTable) :
    table.IsInherited table.findMethod (fun decl found => some (decl, found)) none := by
  intro name decl method h
  cases hm : decl.method? method with
  | some found => exact findMethod_of_declared h hm
  | none =>
    rw [findMethod_of_not_declared h hm, declaredParent?]
    cases decl.parent with
    | none => rfl
    | some parent =>
      by_cases hparent : table.contains parent = true
      · rw [Option.filter_some, if_pos hparent]
        rfl
      · rw [Option.filter_some, if_neg hparent]
        exact findMethod_of_not_contains hparent

/-- **All lookups of methods obey the law of inheritance**, on every table: what is seen from a
declared type is its own first declaration of the method, otherwise what is seen from its parent if
that is declared, otherwise nothing. So are the answers that are read off the declaration: the type
that declares the method, whether there is one, the parameters and the documentation. -/
theorem lookups_inherited (table : TypeTable) :
    table.IsInherited table.findMethod (fun decl found => some (decl, found)) none ∧
    table.IsInherited table.introspector.declaringType (fun decl _ => some decl.name) none ∧
    table.IsInherited table.introspector.hasMethod (fun _ _ => true) false ∧
    table.IsInherited table.introspector.parameters (fun _ found => some found.parameters) none ∧
    table.IsInherited table.introspector.documentation
      (fun _ found => some found.documentation) none := by
  have h := findMethod_inherited table
  have hdeclaring := h.map (Option.map (·.1.name))
  exact ⟨h, hdeclaring, hdeclaring.map Option.isSome, h.map (Option.map (·.2.parameters)),
    h.map (Option.map (·.2.documentation))⟩

/-- Two types that are parents of each other, with a third one below. From the upper one of the two
a method of the lower one is seen, as from the lower one itself. -/
theorem lookups_inherited_on_circle :
    let lower : TypeDecl :=
      { name := "Lower", parent := some "Upper", methods := [{ name := "look" }] }
    let upper : TypeDecl := { name := "Upper", parent := some "Lower" }
    let table := ofList [{ name := "Leaf", parent := some "Lower" }, lower, upper]
    table.get? "Upper" = some upper ∧
      table.findMethod "Upper" "look" = table.findMethod "Lower" "look" ∧
      table.findMethod "Upper" "look" = some (lower, { name := "look" }) ∧
      table.findMethod "Leaf" "fly" = table.findMethod "Lower" "fly" := by
  intro lower upper table
  have hfind := (lookups_inherited table).1
  have hupper := hfind "Upper" upper "look" rfl
  have hlower := hfind "Lower" lower "look" rfl
  exact ⟨rfl, hupper, hupper.trans hlower, hfind "Leaf" _ "fly" rfl⟩

end TypeTable

end TestActor
