import Mathlib.Data.List.Nodup
import TestActor.Proofs.FirstOccurrence
import TestActor.Proofs.ManifestGeneration

/-!
# Owners of actions

Which declaration a forwarding method stands for is decided in four places: the modules say which
methods are their actions, the registry gives an action to the first module that has it, the
generator finds the module of the owner's name, and the descriptor is read from the nearest
declaration. For a manifest all of them come to the same declaration.

## Main definitions

* `Manifest.eligible`: the actions that a configured name brings in.
* `Manifest.Declares`: the declaration behind an action of a module.

## Main statements

* `Manifest.mem_entries_iff`: the first configured module that has an action owns it.
* `Manifest.owners_and_declarations`: the declaration behind every forwarding method.
-/

namespace TestActor

namespace Manifest

variable {manifest : Manifest} {settings : Settings} {g : Generator} {action owner name : String}

/-- The actions that a configured name brings in. -/
def eligible (manifest : Manifest) (name : String) : List String :=
  match manifest.instantiate name with
  | .error _ => []
  | .ok module => manifest.actions module

/-- The declaration behind an action of a module: the nearest one along the ancestry of the module's
type. It is public, and the module admits its name, which is not the name of a hook. -/
structure Declares (manifest : Manifest) (entry : ModuleEntry) (action : String) (decl : TypeDecl)
    (m : MethodDecl) : Prop where
  nearest : ∃ before after, manifest.types.ancestry entry.typeName = before ++ decl :: after ∧
    ∀ t ∈ before, t.method? action = none
  declared : decl.method? action = some m
  isPublic : m.visibility = .isPublic
  admitted : entry.Admits action

/-! ## Owners -/

/-- What the configured names bring in, in order. -/
def offers (manifest : Manifest) (names : List String) : List (String × String) :=
  names.flatMap fun name => (manifest.eligible name).map (·, name)

/-- An action is offered first by the first name that brings it in. -/
theorem find?_offers (manifest : Manifest) (names : List String) (action : String) :
    (manifest.offers names).find? (·.1 == action)
      = (names.find? fun name => (manifest.eligible name).contains action).map (action, ·) := by
  induction names with
  | nil => rfl
  | cons name rest ih =>
    have hcons : manifest.offers (name :: rest)
        = (manifest.eligible name).map (·, name) ++ manifest.offers rest := List.flatMap_cons
    have hfirst : ((manifest.eligible name).map (·, name)).find? (·.1 == action)
        = ((manifest.eligible name).find? (· == action)).map (·, name) := List.find?_map
    rw [hcons, List.find?_append, hfirst, ih]
    by_cases hmem : action ∈ manifest.eligible name
    · have hfound : (manifest.eligible name).find? (· == action) = some action := by
        cases h : (manifest.eligible name).find? (· == action) with
        | none => exact absurd (List.find?_eq_none.mp h action hmem) (by simp)
        | some found =>
          have hsame : found = action := by simpa using List.find?_some h
          rw [hsame]
      rw [hfound, List.find?_cons_of_pos (by simpa using hmem)]
      rfl
    · have hnone : (manifest.eligible name).find? (· == action) = none := by
        rw [List.find?_eq_none]
        intro a ha he
        have hsame : a = action := by simpa using he
        exact hmem (hsame ▸ ha)
      rw [hnone, List.find?_cons_of_neg (by simpa using hmem)]
      rfl

/-- What is contributed is what the configured names bring in. -/
theorem contributed_eq_offers {names : List String}
    {contributed : List (ModuleInstance × List String)}
    (h : List.Forall₂ (Generator.Contributes manifest.source) names contributed) :
    ActionRegistry.contributed contributed = manifest.offers names := by
  rw [ActionRegistry.contributed, offers]
  induction h with
  | nil => rfl
  | @cons name c names rest hc _ ih =>
    obtain ⟨hname, hactions⟩ := hc
    have heligible : manifest.eligible name = c.2 := by
      rw [eligible, show manifest.instantiate name = .ok c.1 from hname]
      exact hactions.symm
    obtain ⟨entry, decl, -, -, hmodule⟩ := instantiate_eq_ok_iff.mp hname
    have hsame : c.1.name = name := by rw [hmodule]
    rw [List.flatMap_cons, List.flatMap_cons, ih, heligible]
    show c.2.map (·, c.1.name) ++ _ = _
    rw [hsame]

theorem entries_of_prepare (hg : manifest.prepare settings = .ok g) :
    g.actions.entries = firstOf (·.1) [] (manifest.offers settings.modules) := by
  obtain ⟨contributed, hall, rfl⟩ := Generator.prepare_eq_ok_iff.mp hg
  rw [← contributed_eq_offers hall]
  exact ActionRegistry.entries_ofContributions contributed

/-- **The first configured module that has an action owns it.** -/
theorem mem_entries_iff (hg : manifest.prepare settings = .ok g) :
    (action, owner) ∈ g.actions.entries ↔
      settings.modules.find? (fun name => (manifest.eligible name).contains action)
        = some owner := by
  rw [entries_of_prepare hg, mem_firstOf_iff]
  show _ ∧ (manifest.offers settings.modules).find? (·.1 == action) = some (action, owner) ↔ _
  rw [find?_offers, Option.map_eq_some_iff]
  simp

/-- Every action that a configured module has is registered once. -/
theorem count_entries_eq_one (hg : manifest.prepare settings = .ok g)
    (hname : name ∈ settings.modules) (haction : action ∈ manifest.eligible name) :
    (g.actions.entries.map (·.1)).count action = 1 := by
  obtain ⟨owner, howner⟩ : ∃ owner, settings.modules.find?
      (fun name => (manifest.eligible name).contains action) = some owner := by
    rw [← Option.isSome_iff_exists, List.find?_isSome]
    exact ⟨name, hname, by simpa using haction⟩
  have hmem := (mem_entries_iff hg).mpr howner
  exact List.count_eq_one_of_mem (Generator.IsPrepared.of_prepare hg).nodup
    (List.mem_map_of_mem (f := (·.1)) hmem)

/-! ## Declarations -/

/-- **Behind a registered action stands the declaration of its owner.** -/
theorem exists_declares (hg : manifest.prepare settings = .ok g)
    (h : (action, owner) ∈ g.actions.entries) :
    ∃ entry decl m d, manifest.module? owner = some entry ∧
      manifest.Declares entry action decl m ∧ g.descriptor? action owner = some d ∧
      d.owner = decl.name ∧ d.method = action ∧
      d.params = m.params.map fun p => ⟨p.name, p.default.isSome⟩ := by
  obtain ⟨entry, hentry, hmodule, haction⟩ := module?_of_registered hg h
  obtain ⟨found, decl, m, hfound, hadmits, hseen, hpublic⟩ :=
    exists_findMethod_of_mem_actions haction
  obtain rfl : found = entry := Option.some.inj (hfound.symm.trans hentry)
  obtain ⟨before, after, hsplit, hbefore, hdeclared⟩ :=
    TypeTable.exists_nearest_of_findMethod hseen
  have hdescriptor := descriptor?_of_findMethod hg hmodule hseen
  refine ⟨found, decl, m, _, hentry, ?_, hdescriptor, rfl, rfl, rfl⟩
  exact ⟨⟨before, after, hsplit, hbefore⟩, hdeclared, hpublic, hadmits⟩

end Manifest

/-- Every forwarding method that is planned belongs to a registered action. -/
theorem Generator.exists_entry_of_mem_plan {g : Generator} {p : Descriptor × Step}
    (h : p ∈ g.plan) :
    ∃ action owner, (action, owner) ∈ g.actions.entries ∧
      g.descriptor? action owner = some p.1 ∧ p.2 ∈ Step.ofMethod action := by
  obtain ⟨⟨action, owner⟩, hentry, hp⟩ := List.mem_flatMap.mp h
  rw [planOf] at hp
  split at hp
  · simp at hp
  · next descriptor hd =>
    obtain ⟨step, hstep, rfl⟩ := List.mem_map.mp hp
    exact ⟨action, owner, hentry, hd, hstep⟩

namespace Manifest

variable {manifest : Manifest} {settings : Settings} {g : Generator}

/-- **Every forwarding method stands for the declaration that its module is seen to have.** The
first configured module that has an action owns it, and every action of a configured module is
registered once. The descriptor of a registered action has the owner and the parameters of the
nearest declaration along the ancestry of the owning module's type, which is public, no hook and
not left out. The document has no other forwarding methods than those of registered actions. -/
theorem owners_and_declarations (hg : manifest.prepare settings = .ok g) :
    (∀ action owner, (action, owner) ∈ g.actions.entries ↔
      settings.modules.find? (fun name => (manifest.eligible name).contains action)
        = some owner) ∧
    (∀ name ∈ settings.modules, ∀ action ∈ manifest.eligible name,
      (g.actions.entries.map (·.1)).count action = 1) ∧
    (∀ action owner, (action, owner) ∈ g.actions.entries →
      ∃ entry decl m d, manifest.module? owner = some entry ∧
        manifest.Declares entry action decl m ∧ g.descriptor? action owner = some d ∧
        d.owner = decl.name ∧ d.method = action ∧
        d.params = m.params.map fun p => ⟨p.name, p.default.isSome⟩) ∧
    ∃ document, g.produce = .ok document ∧
      List.Forall₂ (fun p text => Forwarder.render p.1 p.2 = .ok text) g.plan document.methods ∧
      ∀ p ∈ g.plan, ∃ action owner, (action, owner) ∈ g.actions.entries ∧
        g.descriptor? action owner = some p.1 ∧ p.2 ∈ Step.ofMethod action := by
  refine ⟨fun _ _ => mem_entries_iff hg, ?_, fun _ _ => exists_declares hg, ?_⟩
  · intro name hname action haction
    exact count_entries_eq_one hg hname haction
  · obtain ⟨document, hdocument⟩ := exists_produce hg
    exact ⟨document, hdocument, Generator.render_plan_of_produce (.of_prepare hg) hdocument,
      fun p hp => Generator.exists_entry_of_mem_plan hp⟩

/-- A module whose type hides a method, and another one which leaves it out, pass the action on to
the module of the type that declares it. -/
theorem click_owned_behind_hidden :
    let manifest : Manifest := {
      modules := [
        { name := "Web", typeName := "Child" },
        { name := "Quiet", typeName := "Base", excludeActions := ["click"] },
        { name := "Db", typeName := "Base" }]
      types := .ofList [
        { name := "Base"
          methods := [{ name := "click", params := [{ name := "link" }] }, { name := "open" }] },
        { name := "Child", parent := some "Base"
          methods := [{ name := "seeText" }, { name := "click", visibility := .isProtected }] }] }
    ∃ g, manifest.prepare ⟨"Acceptance", "Tests", ["Web", "Quiet", "Db", "Web"]⟩ = .ok g ∧
      ("click", "Db") ∈ g.actions.entries ∧ (g.actions.entries.map (·.1)).count "click" = 1 ∧
      ∃ entry decl m d, manifest.module? "Db" = some entry ∧
        manifest.Declares entry "click" decl m ∧ g.descriptor? "click" "Db" = some d ∧
        d.owner = decl.name ∧ d.method = "click" ∧
        d.params = m.params.map fun p => ⟨p.name, p.default.isSome⟩ := by
  intro manifest
  obtain ⟨g, hg⟩ : ∃ g, manifest.prepare
      ⟨"Acceptance", "Tests", ["Web", "Quiet", "Db", "Web"]⟩ = .ok g := ⟨_, rfl⟩
  obtain ⟨howner, hcount, hdeclares, -⟩ := owners_and_declarations hg
  have hmem : ("click", "Db") ∈ g.actions.entries :=
    (howner "click" "Db").mpr (by decide +kernel)
  exact ⟨g, hg, hmem, hcount "Db" (by decide) "click" (by decide +kernel), hdeclares _ _ hmem⟩

end Manifest

end TestActor
