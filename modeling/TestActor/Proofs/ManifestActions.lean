import TestActor.Manifest
import TestActor.Proofs.FirstOccurrence
import TestActor.Proofs.Lookup

/-!
# Actions of a module

The actions of a module are collected in one walk over the declared methods, which passes over every
name that it has met. The lookup of a method takes the nearest declaration instead. Both choose the
same declaration, because a name is met first where it is declared nearest; what is asked of the
declaration is asked after that choice, so a method that is no action hides those above it.

## Main definitions

* `ModuleEntry.Admits`: what a module asks of the name of an action.
* `Manifest.decisive?`: the declaration on which it depends whether a method is an action.

## Main statements

* `Manifest.mem_actions_iff`: which methods are actions.
* `Manifest.actions_by_nearest_declaration`: which methods are actions, and in what order.
-/

namespace TestActor

/-- What a module asks of the name of an action. -/
structure ModuleEntry.Admits (entry : ModuleEntry) (name : String) : Prop where
  notHook : name.toList.head? ≠ some '_'
  notExcluded : name ∉ entry.excludeActions
  listed : entry.onlyActions = [] ∨ name ∈ entry.onlyActions

namespace Manifest

variable {manifest : Manifest} {entry : ModuleEntry} {module : ModuleInstance}
  {typeName name : String} {m : MethodDecl}

theorem isEligible_iff :
    isEligible entry m = true ↔ m.visibility = .isPublic ∧ entry.Admits m.name := by
  have hadmits : entry.Admits m.name ↔ m.name.toList.head? ≠ some '_' ∧
      m.name ∉ entry.excludeActions ∧ (entry.onlyActions = [] ∨ m.name ∈ entry.onlyActions) :=
    ⟨fun ⟨h₁, h₂, h₃⟩ => ⟨h₁, h₂, h₃⟩, fun ⟨h₁, h₂, h₃⟩ => ⟨h₁, h₂, h₃⟩⟩
  rw [hadmits, isEligible, isHook]
  simp [and_assoc]

/-! ## Declarations in reach -/

/-- The declarations that the walk passes, in order. -/
def declared (manifest : Manifest) (entry : ModuleEntry) (typeName : String) : List MethodDecl :=
  (manifest.reach entry typeName).flatMap (·.methods)

theorem actions_of_module? (h : manifest.module? module.name = some entry) :
    manifest.actions module
      = ((firstOf (·.name) [] (manifest.declared entry module.typeName)).filter
          (isEligible entry)).map (·.name) := by
  rw [actions, h]
  rfl

theorem isPrefix_reach (manifest : Manifest) (entry : ModuleEntry) (typeName : String) :
    manifest.reach entry typeName <+: manifest.types.ancestry typeName := by
  unfold reach
  split
  · exact List.prefix_rfl
  · exact List.take_prefix 1 _

/-- The declaration on which it depends whether a method is an action: the one that is seen from the
type, or the type's own one where inherited methods are left out. -/
def decisive? (manifest : Manifest) (entry : ModuleEntry) (typeName name : String) :
    Option MethodDecl :=
  if entry.includeInherited then (manifest.types.findMethod typeName name).map (·.2)
  else (manifest.types.get? typeName).bind (·.method? name)

/-- The nearest declaration along any types. -/
theorem map_snd_findMethod (table : TypeTable) (typeName name : String) :
    (table.findMethod typeName name).map (·.2)
      = (table.ancestry typeName).findSome? (·.method? name) := by
  rw [TypeTable.findMethod, List.map_findSome?]
  congr 1
  funext decl
  simp only [Function.comp_apply, Option.map_map]
  exact Option.map_id'

theorem findSome?_take_one_ancestry (table : TypeTable) (typeName name : String) :
    ((table.ancestry typeName).take 1).findSome? (·.method? name)
      = (table.get? typeName).bind (·.method? name) := by
  cases h : table.get? typeName with
  | none =>
    rw [TypeTable.ancestry, TypeTable.lineage_of_find?_eq_none h]
    rfl
  | some decl =>
    obtain ⟨above, habove⟩ := TypeTable.exists_ancestry_eq_cons h
    rw [habove]
    show [decl].findSome? (·.method? name) = decl.method? name
    cases hm : decl.method? name <;> simp [hm]

/-- The walk meets a name first at the declaration that decides. -/
theorem find?_declared (manifest : Manifest) (entry : ModuleEntry) (typeName name : String) :
    (manifest.declared entry typeName).find? (·.name == name)
      = manifest.decisive? entry typeName name := by
  have hreach : (manifest.declared entry typeName).find? (·.name == name)
      = (manifest.reach entry typeName).findSome? (·.method? name) := List.find?_flatMap
  rw [hreach, reach, decisive?]
  by_cases h : entry.includeInherited
  · rw [if_pos h, if_pos h, map_snd_findMethod]
  · rw [if_neg h, if_neg h, findSome?_take_one_ancestry]

/-- What decides is the declaration that is seen from the type. -/
theorem map_snd_findMethod_of_decisive? (h : manifest.decisive? entry typeName name = some m) :
    (manifest.types.findMethod typeName name).map (·.2) = some m := by
  rw [← find?_declared, declared, List.find?_flatMap] at h
  rw [map_snd_findMethod]
  exact (isPrefix_reach manifest entry typeName).findSome?_eq_some h

/-! ## Actions -/

/-- **A method is an action when the declaration that decides is public and the module admits its
name.** -/
theorem mem_actions_iff (h : manifest.module? module.name = some entry) :
    name ∈ manifest.actions module ↔
      entry.Admits name ∧
        ∃ m, manifest.decisive? entry module.typeName name = some m ∧
          m.visibility = .isPublic := by
  rw [actions_of_module? h, List.mem_map]
  constructor
  · rintro ⟨m, hm, rfl⟩
    obtain ⟨hfirst, heligible⟩ := List.mem_filter.mp hm
    obtain ⟨hpublic, hadmits⟩ := isEligible_iff.mp heligible
    exact ⟨hadmits, m, (find?_declared ..).symm.trans (mem_firstOf_iff.mp hfirst).2, hpublic⟩
  · rintro ⟨hadmits, m, hm, hpublic⟩
    rw [← find?_declared] at hm
    have hname : m.name = name := by simpa using List.find?_some hm
    subst hname
    refine ⟨m, List.mem_filter.mpr ⟨?_, isEligible_iff.mpr ⟨hpublic, hadmits⟩⟩, rfl⟩
    exact mem_firstOf_iff.mpr ⟨List.not_mem_nil, hm⟩

/-- The declaration of an action that is seen from the type of the module. -/
theorem exists_findMethod_of_mem_actions (h : name ∈ manifest.actions module) :
    ∃ entry decl m, manifest.module? module.name = some entry ∧ entry.Admits name ∧
      manifest.types.findMethod module.typeName name = some (decl, m) ∧
      m.visibility = .isPublic := by
  cases hentry : manifest.module? module.name with
  | none => simp [actions, hentry] at h
  | some entry =>
    obtain ⟨hadmits, m, hm, hpublic⟩ := (mem_actions_iff hentry).mp h
    obtain ⟨⟨decl, found⟩, hfound, rfl⟩ :=
      Option.map_eq_some_iff.mp (map_snd_findMethod_of_decisive? hm)
    exact ⟨entry, decl, found, rfl, hadmits, hfound, hpublic⟩

theorem nodup_actions (h : manifest.module? module.name = some entry) :
    (manifest.actions module).Nodup := by
  rw [actions_of_module? h]
  exact (nodup_map_firstOf _ _ _).sublist (List.filter_sublist.map _)

/-- The names of the methods that a walk over an ancestry meets, with repetitions. -/
def namesAlong (types : TypeTable) (typeName : String) : List String :=
  ((types.ancestry typeName).flatMap (·.methods)).map (·.name)

theorem pairwise_actions (h : manifest.module? module.name = some entry) :
    (manifest.actions module).Pairwise fun a b =>
      (namesAlong manifest.types module.typeName).idxOf a
        < (namesAlong manifest.types module.typeName).idxOf b := by
  obtain ⟨above, habove⟩ := isPrefix_reach manifest entry module.typeName
  have hnames : namesAlong manifest.types module.typeName
      = (manifest.declared entry module.typeName).map (·.name)
          ++ (above.flatMap (·.methods)).map (·.name) := by
    rw [namesAlong, ← habove, List.flatMap_append, List.map_append]
    rfl
  rw [actions_of_module? h, List.pairwise_map]
  refine List.Pairwise.filter _ (pairwise_idxOf_firstOf.imp_of_mem fun {a b} ha hb hlt => ?_)
  have hmem : ∀ {m}, m ∈ firstOf (·.name) [] (manifest.declared entry module.typeName) →
      m.name ∈ (manifest.declared entry module.typeName).map (·.name) :=
    fun hm => List.mem_map_of_mem (mem_firstOf hm).1
  rw [hnames, List.idxOf_append_of_mem (hmem ha), List.idxOf_append_of_mem (hmem hb)]
  exact hlt

/-- Taking inherited methods in adds actions behind those that were there. -/
theorem isPrefix_actions {wide : Manifest} (h : manifest.module? module.name = some entry)
    (htypes : wide.types = manifest.types)
    (hwide : wide.module? module.name = some { entry with includeInherited := true }) :
    manifest.actions module <+: wide.actions module := by
  obtain ⟨above, habove⟩ := isPrefix_reach manifest entry module.typeName
  have hdeclared : wide.declared { entry with includeInherited := true } module.typeName
      = manifest.declared entry module.typeName ++ above.flatMap (·.methods) := by
    rw [declared, declared, ← List.flatMap_append, habove, reach, if_pos rfl, htypes]
  rw [actions_of_module? h, actions_of_module? hwide, hdeclared]
  exact ((isPrefix_firstOf _ _ _ _).filter (isEligible entry)).map (·.name)

/-- What a nearer declaration hides is no action when that declaration is not public. -/
theorem not_mem_actions_of_hidden {before after : List TypeDecl} {near : TypeDecl}
    (h : manifest.module? module.name = some entry)
    (hsplit : manifest.types.ancestry module.typeName = before ++ near :: after)
    (hbefore : ∀ decl ∈ before, decl.method? name = none) (hnear : near.method? name = some m)
    (hhidden : m.visibility ≠ .isPublic) : name ∉ manifest.actions module := by
  intro haction
  obtain ⟨-, found, hfound, hpublic⟩ := (mem_actions_iff h).mp haction
  have hseen := map_snd_findMethod_of_decisive? hfound
  have hnone : before.findSome? (·.method? name) = none := List.findSome?_eq_none_iff.mpr hbefore
  rw [map_snd_findMethod, hsplit, List.findSome?_append, hnone, Option.none_or,
    List.findSome?_cons, hnear] at hseen
  exact hhidden (Option.some.inj hseen ▸ hpublic)

/-- **The actions of a module are the methods whose nearest declaration makes them one**, each once
and in the order in which a walk over the ancestry meets their names. Where the module leaves
inherited methods out, the type's own declarations count instead, and the actions are the first ones
of those that there would be with inherited methods. A method with a nearer declaration that is not
public is no action. -/
theorem actions_by_nearest_declaration (h : manifest.module? module.name = some entry) :
    (manifest.actions module).Nodup ∧
    (∀ name, name ∈ manifest.actions module ↔
      entry.Admits name ∧
        ∃ m, manifest.decisive? entry module.typeName name = some m ∧
          m.visibility = .isPublic) ∧
    ((manifest.actions module).Pairwise fun a b =>
      (namesAlong manifest.types module.typeName).idxOf a
        < (namesAlong manifest.types module.typeName).idxOf b) ∧
    (∀ wide : Manifest, wide.types = manifest.types →
      wide.module? module.name = some { entry with includeInherited := true } →
      manifest.actions module <+: wide.actions module) ∧
    (∀ name before near after m,
      manifest.types.ancestry module.typeName = before ++ near :: after →
      (∀ decl ∈ before, decl.method? name = none) → near.method? name = some m →
      m.visibility ≠ .isPublic → name ∉ manifest.actions module) := by
  refine ⟨nodup_actions h, fun name => mem_actions_iff h, pairwise_actions h, ?_, ?_⟩
  · intro wide htypes hwide
    exact isPrefix_actions h htypes hwide
  · intro name before near after m hsplit hbefore hnear hhidden
    exact not_mem_actions_of_hidden h hsplit hbefore hnear hhidden

/-- A protected method hides the public one of the parent, whose other methods are actions unless
they are hooks. -/
theorem actions_below_protected_click :
    let child : TypeDecl := {
      name := "Child", parent := some "Base"
      methods := [{ name := "seeText" }, { name := "click", visibility := .isProtected }] }
    let base : TypeDecl := {
      name := "Base"
      methods := [{ name := "click" }, { name := "amOnPage" }, { name := "_before" }] }
    let manifest : Manifest := {
      modules := [{ name := "Web", typeName := "Child" }]
      types := .ofList [base, child] }
    let module : ModuleInstance := ⟨"Web", "Child"⟩
    manifest.module? module.name = some { name := "Web", typeName := "Child" } ∧
      manifest.actions module = ["seeText", "amOnPage"] ∧
      (manifest.actions module).Nodup ∧ "click" ∉ manifest.actions module := by
  intro child base manifest module
  have hentry : manifest.module? module.name = some { name := "Web", typeName := "Child" } := rfl
  have hancestry : manifest.types.ancestry module.typeName = [] ++ child :: [base] := by
    decide +kernel
  obtain ⟨hnodup, -, -, -, hhidden⟩ := actions_by_nearest_declaration hentry
  refine ⟨hentry, by decide +kernel, hnodup, ?_⟩
  exact hhidden "click" [] child [base] { name := "click", visibility := .isProtected } hancestry
    (by simp) rfl (by decide)

end Manifest

end TestActor
