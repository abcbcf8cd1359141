import TestActor.Proofs.SharedTypes

/-!
# What a descriptor holds

A descriptor is put together from several lookups: for the declaring type, for the parameters as
seen from there, and for up to three comments. All of it is said here of the one declaration that is
seen from a type. Its parameters are the ones of the descriptor, and its comment is tried first;
then that of the first interface of the declaring type from which the method is seen, and then the
one seen from the parent of the declaring type. A comment that is empty does not count.

Of the interfaces that types name, only those of the declaring type are asked for. The walks along
ancestries go by parents, so that all other lookups are blind to interfaces.

## Main definitions

* `TypeTable.commentOf`: the comment that documents a method.
* `TypeTable.SameButInterfaces`: tables that differ at most in the interfaces that types name.

## Main statements

* `Descriptor.resolve_eq_map_findMethod`: the descriptor in terms of the declaration.
* `TypeTable.SameButInterfaces.resolve`: which interfaces it depends on.
* `Descriptor.resolves_declaration`: both, and that the declaring type has the same descriptor.
-/

namespace TestActor

variable {table other : TypeTable} {types others : List TypeDecl} {name method type : String}
  {owner : TypeDecl} {found : MethodDecl}

/-! ## Comments -/

namespace TypeTable

/-- The comments that may document a method that `owner` declares, in the order in which they are
tried: of the declaration, of the first interface that `owner` names from which the method is seen,
and seen from the parent of `owner`. Where nothing is seen the comment is empty. -/
def comments (table : TypeTable) (owner : TypeDecl) (found : MethodDecl) (method : String) :
    List String :=
  let seenByInterface := owner.interfaces.findSome? (table.findMethod · method)
  let seenByParent := owner.parent.bind (table.findMethod · method)
  [found.documentation, (seenByInterface.map (·.2.documentation)).getD "",
    (seenByParent.map (·.2.documentation)).getD ""]

/-- The first of these comments that is not empty. -/
def commentOf (table : TypeTable) (owner : TypeDecl) (found : MethodDecl) (method : String) :
    String :=
  ((table.comments owner found method).find? (· ≠ "")).getD ""

theorem hasMethod_eq_isSome :
    table.introspector.hasMethod name method = (table.findMethod name method).isSome :=
  Option.isSome_map

theorem interfaces_of_get? (h : table.get? name = some owner) :
    table.interfaces name = owner.interfaces := by
  rw [interfaces, h]

theorem parent_of_get? (h : table.get? name = some owner) : table.parent name = owner.parent := by
  rw [parent, h]
  rfl

end TypeTable

namespace Descriptor

/-- The first name from which a method is seen, with what is seen from it. -/
theorem find?_bind_findMethod (names : List String) :
    (names.find? (table.introspector.hasMethod · method)).bind (table.findMethod · method)
      = names.findSome? (table.findMethod · method) := by
  induction names with
  | nil => rfl
  | cons first rest ih =>
    rw [List.find?_cons, List.findSome?_cons, TypeTable.hasMethod_eq_isSome]
    cases hfirst : table.findMethod first method with
    | none => exact ih
    | some seen => exact hfirst

theorem interfaceDoc_eq (h : table.get? owner.name = some owner) :
    interfaceDoc table.introspector owner.name method
      = ((owner.interfaces.findSome? (table.findMethod · method)).map
          (·.2.documentation)).getD "" := by
  have hnamed : table.introspector.interfaces owner.name = owner.interfaces :=
    TypeTable.interfaces_of_get? h
  rw [interfaceDoc, hnamed, ← find?_bind_findMethod]
  cases owner.interfaces.find? (table.introspector.hasMethod · method) <;> rfl

theorem parentDoc_eq (h : table.get? owner.name = some owner) :
    parentDoc table.introspector owner.name method
      = ((owner.parent.bind (table.findMethod · method)).map (·.2.documentation)).getD "" := by
  have hparent : table.introspector.parent owner.name = owner.parent := TypeTable.parent_of_get? h
  rw [parentDoc, hparent]
  cases owner.parent with
  | none => rfl
  | some parent =>
    show (if table.introspector.hasMethod parent method then
        ((table.findMethod parent method).map (·.2.documentation)).getD "" else "") = _
    rw [TypeTable.hasMethod_eq_isSome, Option.bind_some]
    cases table.findMethod parent method <;> rfl

/-- The first of three texts that is not empty. -/
theorem find?_ne_empty (first second third : String) :
    (([first, second, third].find? (· ≠ "")).getD "")
      = let found := if first.isEmpty then second else first
        if found.isEmpty then third else found := by
  by_cases hfirst : first = ""
  · by_cases hsecond : second = ""
    · by_cases hthird : third = "" <;> simp [hfirst, hsecond, hthird]
    · simp [hfirst, hsecond]
  · simp [hfirst]

/-- **The comment of a descriptor is the first that is not empty.** -/
theorem rawDoc_eq_commentOf (h : table.findMethod owner.name method = some (owner, found)) :
    rawDoc table.introspector owner.name method = table.commentOf owner found method := by
  have howner : table.get? owner.name = some owner :=
    TypeTable.get?_of_mem_ancestry (TypeTable.mem_ancestry_of_findMethod h)
  have hown : table.introspector.documentation owner.name method = some found.documentation := by
    show (table.findMethod owner.name method).map _ = _
    rw [h]
    rfl
  rw [rawDoc, hown, interfaceDoc_eq howner, parentDoc_eq howner]
  exact (find?_ne_empty _ _ _).symm

/-- **The descriptor of a method in terms of the declaration that is seen.** -/
theorem resolve_eq_map_findMethod (table : TypeTable) (type method : String) :
    resolve table.introspector type method
      = (table.findMethod type method).map fun (owner, found) =>
          ⟨owner.name, method, found.params.map fun p => ⟨p.name, p.default.isSome⟩,
            DocComment.text (table.commentOf owner found method)⟩ := by
  cases h : table.findMethod type method with
  | none =>
    have hnone : table.introspector.declaringType type method = none := by
      show (table.findMethod type method).map _ = none
      rw [h]
      rfl
    rw [resolve, hnone]
    rfl
  | some seen =>
    obtain ⟨owner, found⟩ := seen
    rw [resolve_of_findMethod h, rawDoc_eq_commentOf (TypeTable.findMethod_declaring h)]
    rfl

end Descriptor

/-! ## Interfaces that are not asked for -/

/-- The type without the interfaces that it names. -/
def TypeDecl.withoutInterfaces (decl : TypeDecl) : TypeDecl :=
  { decl with interfaces := [] }

namespace TypeTable

/-- Tables with the same types, but for the interfaces that these name. -/
def SameButInterfaces (table other : TypeTable) : Prop :=
  ∀ name, (other.get? name).map TypeDecl.withoutInterfaces
    = (table.get? name).map TypeDecl.withoutInterfaces

theorem sameButInterfaces_of_map_types
    (h : other.types.map TypeDecl.withoutInterfaces = table.types.map TypeDecl.withoutInterfaces) :
    table.SameButInterfaces other := by
  -- a search by name does not look at interfaces
  have hsearch : ∀ (t : TypeTable) (name : String), (t.get? name).map TypeDecl.withoutInterfaces
      = (t.types.map TypeDecl.withoutInterfaces).find? (·.name == name) := by
    intro t name
    rw [List.find?_map]
    rfl
  intro name
  rw [hsearch, hsearch, h]

/-- A walk does not look at interfaces. -/
theorem lineage_withoutInterfaces
    (hsame : ∀ n, (others.find? (·.name == n)).map TypeDecl.withoutInterfaces
      = (types.find? (·.name == n)).map TypeDecl.withoutInterfaces) :
    (lineage others name).map TypeDecl.withoutInterfaces
      = (lineage types name).map TypeDecl.withoutInterfaces := by
  fun_induction lineage types name generalizing others with
  | case1 types name hnone =>
    have hother : others.find? (·.name == name) = none := by simpa [hnone] using hsame name
    rw [lineage_of_find?_eq_none hother]
  | case2 types name decl hfound ih =>
    obtain ⟨otherDecl, hother, hplain⟩ : ∃ otherDecl,
        others.find? (·.name == name) = some otherDecl ∧
          otherDecl.withoutInterfaces = decl.withoutInterfaces := by
      simpa [hfound] using hsame name
    have hparent : otherDecl.parent = decl.parent := by
      show otherDecl.withoutInterfaces.parent = decl.withoutInterfaces.parent
      rw [hplain]
    rw [lineage_of_find?_eq_some hother, hparent, List.map_cons, List.map_cons, hplain]
    refine congrArg (decl.withoutInterfaces :: ·) ?_
    cases decl.parent with
    | none => rfl
    | some parent =>
      -- the walk goes on without `name`, in both lists
      refine ih parent fun n => ?_
      rw [find?_without, find?_without]
      split
      · rfl
      · exact hsame n

namespace SameButInterfaces

variable (h : table.SameButInterfaces other)

include h

/-- **The same declaration of a method is seen**, in a type that is the same but for interfaces. -/
theorem findMethod :
    (other.findMethod name method).map (fun seen => (seen.1.withoutInterfaces, seen.2))
      = (table.findMethod name method).map (fun seen => (seen.1.withoutInterfaces, seen.2)) := by
  -- the search can be made among the types without interfaces
  have hsearch : ∀ t : TypeTable,
      (t.findMethod name method).map (fun seen => (seen.1.withoutInterfaces, seen.2))
        = ((t.ancestry name).map TypeDecl.withoutInterfaces).findSome? fun decl =>
            (decl.method? method).map (decl, ·) := by
    intro t
    rw [TypeTable.findMethod, List.map_findSome?, List.findSome?_map]
    congr 1
    funext decl
    simp only [Function.comp_apply, Option.map_map]
    rfl
  rw [hsearch, hsearch]
  exact congrArg _ (lineage_withoutInterfaces h)

/-- What is read off the declaration, and off its type but for interfaces, is the same. -/
theorem map_findMethod {α : Type} (read : TypeDecl × MethodDecl → α)
    (hread : ∀ seen, read (seen.1.withoutInterfaces, seen.2) = read seen) :
    (other.findMethod name method).map read = (table.findMethod name method).map read := by
  have hsame : ((other.findMethod name method).map
        fun seen => (seen.1.withoutInterfaces, seen.2)).map read
      = ((table.findMethod name method).map
        fun seen => (seen.1.withoutInterfaces, seen.2)).map read :=
    congrArg (Option.map read) h.findMethod
  simpa only [Option.map_map, Function.comp_def, hread] using hsame

theorem parent : other.parent name = table.parent name := by
  have hsame := congrArg (Option.bind · TypeDecl.parent) (h name)
  simp only [Option.bind_map] at hsame
  exact hsame

/-- **A descriptor depends on the interfaces of the declaring type only.** -/
theorem resolve (hfound : table.findMethod type method = some (owner, found))
    (hinterfaces : other.interfaces owner.name = table.interfaces owner.name) :
    Descriptor.resolve other.introspector type method
      = Descriptor.resolve table.introspector type method := by
  have hdeclaring : other.introspector.declaringType = table.introspector.declaringType :=
    funext fun _ => funext fun _ => h.map_findMethod (·.1.name) fun _ => rfl
  have hparameters : other.introspector.parameters = table.introspector.parameters :=
    funext fun _ => funext fun _ => h.map_findMethod (·.2.parameters) fun _ => rfl
  have hdocumentation : other.introspector.documentation = table.introspector.documentation :=
    funext fun _ => funext fun _ => h.map_findMethod (·.2.documentation) fun _ => rfl
  have hhas : other.introspector.hasMethod = table.introspector.hasMethod :=
    funext fun _ => funext fun _ =>
      congrArg Option.isSome (h.map_findMethod (·.1.name) fun _ => rfl)
  have hparent : other.introspector.parent owner.name = table.introspector.parent owner.name :=
    h.parent
  have hnamed : other.introspector.interfaces owner.name
      = table.introspector.interfaces owner.name := hinterfaces
  have hrawDoc : Descriptor.rawDoc other.introspector owner.name method
      = Descriptor.rawDoc table.introspector owner.name method := by
    unfold Descriptor.rawDoc Descriptor.interfaceDoc Descriptor.parentDoc
    rw [hdocumentation, hhas, hparent, hnamed]
  have howner : table.introspector.declaringType type method = some owner.name := by
    show (table.findMethod type method).map _ = _
    rw [hfound]
    rfl
  simp only [Descriptor.resolve, hdeclaring, hparameters, howner, Option.bind_eq_bind,
    Option.bind_some, hrawDoc]

end SameButInterfaces

end TypeTable

namespace Descriptor

/-- **A descriptor is that of the declaration that is seen.** There is one exactly when a declaration
is seen from the type. It names the declaring type and the method, it has the parameters of the
declaration in order, each with whether a default is recorded, and its documentation is that of the
first comment that is not empty: of the declaration, of the first interface that the declaring type
names from which the method is seen, or seen from the parent of the declaring type. From the
declaring type the same descriptor is found. The interfaces that other types name make no
difference, whether these types are below the declaring type, above it or elsewhere. -/
theorem resolves_declaration (table : TypeTable) (type method : String) :
    resolve table.introspector type method
      = (table.findMethod type method).map (fun (owner, found) =>
          ⟨owner.name, method, found.params.map fun p => ⟨p.name, p.default.isSome⟩,
            DocComment.text (table.commentOf owner found method)⟩) ∧
    ∀ owner found, table.findMethod type method = some (owner, found) →
      resolve table.introspector type method = resolve table.introspector owner.name method ∧
      ∀ other, table.SameButInterfaces other →
        other.interfaces owner.name = table.interfaces owner.name →
        resolve other.introspector type method = resolve table.introspector type method := by
  refine ⟨resolve_eq_map_findMethod table type method, fun owner found h => ⟨?_, ?_⟩⟩
  · rw [resolve_eq_map_findMethod, resolve_eq_map_findMethod, h, TypeTable.findMethod_declaring h]
  · intro other hsame hinterfaces
    exact hsame.resolve h hinterfaces

/-- A method that is declared twice without a comment. The declaration in the middle is seen from
below; the first interface of its type has the method without a comment, so that the second one is
not asked, and the comment is taken from above. Other interfaces below and above change nothing. -/
theorem resolves_declaration_in_middle :
    let leaf : TypeDecl := { name := "Leaf", parent := some "Middle" }
    let middle : TypeDecl := {
      name := "Middle", parent := some "Base", interfaces := ["First", "Second"]
      methods := [{ name := "click", params := [{ name := "link", default := some "'x'" }] }] }
    let base : TypeDecl := {
      name := "Base", methods := [{ name := "click", doc := some "/** above */" }] }
    let first : TypeDecl := { name := "First", methods := [{ name := "click" }] }
    let second : TypeDecl := {
      name := "Second", methods := [{ name := "click", doc := some "/** second */" }] }
    let table := TypeTable.ofList [leaf, middle, base, first, second]
    let other := TypeTable.ofList [{ leaf with interfaces := ["Second"] }, middle,
      { base with interfaces := ["Second"] }, first, second]
    let descriptor : Descriptor := ⟨"Middle", "click", [⟨"link", true⟩], "above"⟩
    table.findMethod "Leaf" "click"
        = some (middle, { name := "click", params := [{ name := "link", default := some "'x'" }] }) ∧
      resolve table.introspector "Leaf" "click" = some descriptor ∧
      resolve table.introspector "Middle" "click" = some descriptor ∧
      table.SameButInterfaces other ∧ other.interfaces "Middle" = table.interfaces "Middle" ∧
      resolve other.introspector "Leaf" "click" = some descriptor := by
  intro leaf middle base first second table other descriptor
  have hfound : table.findMethod "Leaf" "click" = some (middle,
      { name := "click", params := [{ name := "link", default := some "'x'" }] }) := by
    decide +kernel
  obtain ⟨hresolve, hsame⟩ := resolves_declaration table "Leaf" "click"
  have hdescriptor : resolve table.introspector "Leaf" "click" = some descriptor := by
    rw [hresolve, hfound]
    decide +kernel
  obtain ⟨howner, hinterfaces⟩ := hsame middle _ hfound
  have hother : table.SameButInterfaces other :=
    TypeTable.sameButInterfaces_of_map_types (by decide)
  refine ⟨hfound, hdescriptor, howner ▸ hdescriptor, hother, rfl, ?_⟩
  rw [hinterfaces other hother rfl, hdescriptor]

end Descriptor

end TestActor
