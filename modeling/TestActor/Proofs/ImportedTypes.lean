import Mathlib.Data.List.Nodup
import TestActor.Proofs.FirstOccurrence
import TestActor.Proofs.ProducedDocument

/-!
# The imports of a document

A document imports the types of the modules that own its actions, each type once. A module is known
to the registry by its name, so a module owns what is registered for its name, and it does not
matter which module of that name has offered it.

The modules that own nothing are left out before a type is met for the first time. So a type that
comes first with such a module is still imported for a later one, at the place of the later one.

## Main definitions

* `Generator.Owns`: something is registered for the module's name.
* `Generator.firstOwner`: the place of the first module of a type that owns something.

## Main statements

* `Generator.mem_importedTypes_iff`, `Generator.pairwise_importedTypes`: which types are imported,
  and in which order.
* `Generator.imports_leaveOut`: modules that own nothing do not matter.
* `Generator.imports_of_owners`: the imports of a document.
-/

namespace TestActor.Generator

variable {settings : Settings} {source : ModuleSource} {types : Introspector} {g : Generator}
  {type name action owner : String} {module : ModuleInstance}

/-! ## Owning modules -/

/-- Something is registered for the module's name. -/
def Owns (g : Generator) (module : ModuleInstance) : Prop :=
  ∃ entry ∈ g.actions.entries, entry.2 = module.name

theorem isOwner_iff : g.actions.isOwner module.name = true ↔ g.Owns module := by
  simp [ActionRegistry.isOwner, Owns]

/-- The place among the configured modules of the first one of a type that owns something. -/
def firstOwner (g : Generator) (type : String) : Nat :=
  g.modules.findIdx fun module => module.typeName == type && g.actions.isOwner module.name

/-- The owner of a registered action is the module that it is registered for. -/
theorem IsPrepared.moduleOf_eq (hg : g.IsPrepared) (h : (action, owner) ∈ g.actions.entries) :
    g.actions.moduleOf action = some owner := by
  obtain ⟨before, after, hsplit⟩ := List.append_of_mem h
  refine List.lookup_eq_some_iff.mpr ⟨before, after, hsplit, fun entry hentry => ?_⟩
  have hne : action ≠ entry.1 := fun he =>
    hg.not_mem_before hsplit (he ▸ List.mem_map_of_mem hentry)
  simpa using hne

/-- What is registered for a name was offered by a module of that name. -/
theorem exists_offered (hg : prepare settings source types = .ok g)
    (h : (action, owner) ∈ g.actions.entries) :
    ∃ module ∈ g.modules, module.name = owner ∧ action ∈ source.actions module := by
  obtain ⟨contributed, hall, rfl⟩ := prepare_eq_ok_iff.mp hg
  obtain ⟨module, actions, hmem, hname, haction⟩ := ActionRegistry.exists_contribution h
  obtain ⟨configured, -, -, hactions⟩ := exists_contributes_of_mem hall hmem
  refine ⟨module, List.mem_map_of_mem (f := (·.1)) hmem, hname, ?_⟩
  rw [← hactions]
  exact haction

/-! ## Imported types -/

/-- The types that are imported, in order. -/
def importedTypes (g : Generator) : List String :=
  (firstOf (·.typeName) [] (g.modules.filter fun module => g.actions.isOwner module.name)).map
    (·.typeName)

theorem imports_eq (g : Generator) : g.imports = g.importedTypes.map ("use " ++ · ++ ";") := by
  rw [imports, importedTypes, List.map_map]
  rfl

theorem importText_inj {a b : String} (h : "use " ++ a ++ ";" = "use " ++ b ++ ";") : a = b := by
  rw [← String.toList_inj] at h ⊢
  simpa using h

theorem nodup_importedTypes (g : Generator) : g.importedTypes.Nodup :=
  nodup_map_firstOf _ _ _

/-- **The types of owning modules are imported.** -/
theorem mem_importedTypes_iff :
    type ∈ g.importedTypes ↔ ∃ module ∈ g.modules, module.typeName = type ∧ g.Owns module := by
  rw [importedTypes, mem_map_firstOf_iff]
  simp only [List.not_mem_nil, not_false_eq_true, true_and, List.mem_map, List.mem_filter,
    isOwner_iff]
  exact exists_congr fun module => by tauto

/-- **They stand in the order of their first owning modules.** -/
theorem pairwise_importedTypes (g : Generator) :
    g.importedTypes.Pairwise fun a b => g.firstOwner a < g.firstOwner b := by
  rw [importedTypes, List.pairwise_map]
  exact pairwise_findIdx_firstOf

/-! ## Imports -/

theorem mem_imports_iff :
    "use " ++ type ++ ";" ∈ g.imports ↔
      ∃ module ∈ g.modules, module.typeName = type ∧ g.Owns module := by
  rw [imports_eq, ← mem_importedTypes_iff, List.mem_map]
  exact ⟨fun ⟨other, hother, htext⟩ => importText_inj htext ▸ hother, fun h => ⟨type, h, rfl⟩⟩

theorem nodup_imports (g : Generator) : g.imports.Nodup := by
  rw [imports_eq]
  exact (nodup_importedTypes g).map fun a b h => importText_inj h

/-- The generator without the modules of a name. -/
def leaveOut (g : Generator) (name : String) : Generator :=
  { g with modules := g.modules.filter (·.name != name) }

/-- **Modules that own nothing do not matter to the imports.** -/
theorem imports_leaveOut (h : ∀ module ∈ g.modules, module.name = name → ¬ g.Owns module) :
    (g.leaveOut name).imports = g.imports := by
  have howners : (g.leaveOut name).modules.filter (fun module => g.actions.isOwner module.name)
      = g.modules.filter fun module => g.actions.isOwner module.name := by
    rw [leaveOut, List.filter_filter]
    refine List.filter_congr fun module hmodule => ?_
    by_cases hname : module.name = name
    · have hnot : ¬ g.actions.isOwner module.name = true := fun howner =>
        h module hmodule hname (isOwner_iff.mp howner)
      simp [hnot]
    · simp [hname]
  show (firstOf _ [] ((g.leaveOut name).modules.filter fun module =>
    g.actions.isOwner module.name)).map importOf = _
  rw [howners]
  rfl

/-- Modules own nothing when all that they offer is registered for modules of other names. -/
theorem not_owns_of_taken (hg : prepare settings source types = .ok g)
    (h : ∀ module ∈ g.modules, module.name = name → ∀ action ∈ source.actions module,
      g.actions.moduleOf action ≠ some name) (hname : module.name = name) : ¬ g.Owns module := by
  rintro ⟨⟨action, owner⟩, hentry, howner⟩
  obtain rfl : owner = name := howner.trans hname
  obtain ⟨offering, hoffering, hsame, hoffered⟩ := exists_offered hg hentry
  exact h offering hoffering hsame action hoffered
    (IsPrepared.moduleOf_eq (.of_prepare hg) hentry)

/-- **The imports of a document.** They are of the modules of the configured names, in their order:
one for the type of each module for whose name something is registered, and no other. No import
stands twice, so several such modules of one type have one import together; and the imports stand in
the order of the first such module of each type. Modules of a name of which all actions are
registered for other names have no part in the imports: without them the imports are the same. -/
theorem imports_of_owners (hg : prepare settings source types = .ok g) :
    List.Forall₂ (fun name module => source.instantiate name = .ok module) settings.modules
      g.modules ∧
    (∀ d, g.produce = .ok d → d.imports = g.imports) ∧
    g.imports.Nodup ∧
    (∀ type, "use " ++ type ++ ";" ∈ g.imports ↔
      ∃ module ∈ g.modules, module.typeName = type ∧ g.Owns module) ∧
    (∃ imported : List String, g.imports = imported.map ("use " ++ · ++ ";") ∧
      imported.Pairwise fun a b => g.firstOwner a < g.firstOwner b) ∧
    (∀ module ∈ g.modules, g.Owns module →
      g.imports.count ("use " ++ module.typeName ++ ";") = 1) ∧
    ∀ name, (∀ module ∈ g.modules, module.name = name → ∀ action ∈ source.actions module,
      g.actions.moduleOf action ≠ some name) → (g.leaveOut name).imports = g.imports := by
  refine ⟨?_, fun d hd => ?_, nodup_imports g, fun type => mem_imports_iff,
    ⟨g.importedTypes, imports_eq g, pairwise_importedTypes g⟩, fun module hmodule howns => ?_,
    fun name htaken => ?_⟩
  · obtain ⟨contributed, hall, rfl⟩ := prepare_eq_ok_iff.mp hg
    rw [List.forall₂_map_right_iff]
    exact hall.imp fun _ _ h => h.1
  · rw [eq_documentOf_plan (.of_prepare hg) hd]
    rfl
  · exact List.count_eq_one_of_mem (nodup_imports g)
      (mem_imports_iff.mpr ⟨module, hmodule, rfl, howns⟩)
  · exact imports_leaveOut fun module _ hname => not_owns_of_taken hg htaken hname

/-- The type of the first module, which has no actions, is imported for two later modules, once and
behind the type of the module between. The last module finds its actions taken. -/
theorem imports_behind_quiet_module :
    let source : ModuleSource := {
      instantiate := fun name => .ok ⟨name, if name = "Web" then "U"
        else if name = "Taken" then "V" else "T"⟩
      actions := fun module =>
        if module.name = "Web" then ["click"] else if module.name = "Late" then ["click", "seeText"]
        else if module.name = "Db" then ["open"]
        else if module.name = "Taken" then ["open", "click"]
        else [] }
    ∃ g, prepare ⟨"Acceptance", "", ["Quiet", "Web", "Late", "Db", "Taken"]⟩ source
        (TypeTable.ofList []).introspector = .ok g ∧
      g.imports = ["use U;", "use T;"] ∧ g.imports.count "use T;" = 1 ∧
      "use V;" ∉ g.imports ∧ (g.leaveOut "Taken").imports = g.imports := by
  intro source
  obtain ⟨g, hg, hmodules, hentries, himports⟩ :
      ∃ g, prepare ⟨"Acceptance", "", ["Quiet", "Web", "Late", "Db", "Taken"]⟩ source
          (TypeTable.ofList []).introspector = .ok g ∧
        g.modules = [⟨"Quiet", "T"⟩, ⟨"Web", "U"⟩, ⟨"Late", "T"⟩, ⟨"Db", "T"⟩, ⟨"Taken", "V"⟩] ∧
        g.actions.entries = [("click", "Web"), ("seeText", "Late"), ("open", "Db")] ∧
        g.imports = ["use U;", "use T;"] :=
    ⟨_, rfl, by decide +kernel, by decide +kernel, by decide +kernel⟩
  have howns : g.Owns ⟨"Db", "T"⟩ := ⟨("open", "Db"), by simp [hentries], rfl⟩
  have hnot : ¬ ∃ module ∈ g.modules, module.typeName = "V" ∧ g.Owns module := by
    simp [hmodules, Owns, hentries]
  have htaken : ∀ module ∈ g.modules, module.name = "Taken" → ∀ action ∈ source.actions module,
      g.actions.moduleOf action ≠ some "Taken" := by
    simp [hmodules, source, ActionRegistry.moduleOf, hentries, List.lookup_cons]
  obtain ⟨-, -, -, hmem, -, hcount, hleave⟩ := imports_of_owners hg
  exact ⟨g, hg, himports, hcount ⟨"Db", "T"⟩ (by simp [hmodules]) howns,
    fun h => hnot ((hmem "V").mp h), hleave "Taken" htaken⟩

end TestActor.Generator
