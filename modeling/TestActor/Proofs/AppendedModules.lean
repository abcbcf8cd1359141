import TestActor.Proofs.Ownership

/-!
# Modules that are appended

When more modules are configured behind others, everything that was generated stays in front: the
registered actions with their owners, the forwarding methods and the imports. An appended module may
carry actions, a type or even a name that an earlier one has. It takes no action away, and it gives
none to an earlier module, because that module registered all of its actions when its turn came.

## Main statements

* `Generator.exists_prepare_of_append`: the preparation goes through the earlier modules first.
* `Manifest.isOwner_iff_of_append`: an earlier module owns an action with the appended modules
  exactly if it owns one without them.
* `Manifest.isPrefix_of_append`: what was generated stays in front.
-/

namespace TestActor

/-! ## Preparing more modules -/

namespace Generator

variable {source : ModuleSource} {types : Introspector} {className nspace : String}
  {front back : List String} {large : Generator}

theorem contributions_append :
    contributions source (front ++ back) = do
      let first ← contributions source front
      let others ← contributions source back
      return first ++ others := by
  simp only [contributions_eq_mapM]
  exact List.mapM_append

/-- **The preparation of more modules goes through the earlier ones first.** -/
theorem exists_prepare_of_append
    (hlarge : prepare ⟨className, nspace, front ++ back⟩ source types = .ok large) :
    ∃ contributed others,
      prepare ⟨className, nspace, front⟩ source types
        = .ok ⟨⟨className, nspace, front⟩, types, contributed.map (·.1),
            .ofContributions contributed, currentVersion⟩ ∧
      large = ⟨⟨className, nspace, front ++ back⟩, types, (contributed ++ others).map (·.1),
        .ofContributions (contributed ++ others), currentVersion⟩ := by
  unfold prepare at hlarge
  rw [contributions_append] at hlarge
  obtain ⟨all, hall, hlarge⟩ := bind_eq_ok_iff.mp hlarge
  obtain ⟨contributed, hcontributed, hall⟩ := bind_eq_ok_iff.mp hall
  obtain ⟨others, -, hall⟩ := bind_eq_ok_iff.mp hall
  cases hall
  refine ⟨contributed, others, ?_, (Except.ok.inj hlarge).symm⟩
  exact bind_eq_ok_iff.mpr ⟨contributed, hcontributed, rfl⟩

end Generator

namespace Manifest

variable {manifest : Manifest} {settings : Settings} {className nspace name : String}
  {front back : List String} {small large g : Generator}

theorem name_mem_modules (hg : manifest.prepare settings = .ok g) {module : ModuleInstance}
    (h : module ∈ g.modules) : module.name ∈ settings.modules := by
  obtain ⟨contributed, hall, rfl⟩ := Generator.prepare_eq_ok_iff.mp hg
  obtain ⟨c, hc, rfl⟩ := List.mem_map.mp h
  obtain ⟨name, hname, hmodule, -⟩ := Generator.exists_contributes_of_mem hall hc
  obtain ⟨entry, decl, -, -, hsame⟩ := instantiate_eq_ok_iff.mp hmodule
  rw [hsame]
  exact hname

section Appended

variable (hsmall : manifest.prepare ⟨className, nspace, front⟩ = .ok small)
  (hlarge : manifest.prepare ⟨className, nspace, front ++ back⟩ = .ok large)

include hsmall hlarge

theorem exists_modules_eq_append : ∃ more, large.modules = small.modules ++ more := by
  obtain ⟨contributed, others, hfront, rfl⟩ := Generator.exists_prepare_of_append hlarge
  obtain rfl := Except.ok.inj (hsmall.symm.trans hfront)
  exact ⟨others.map (·.1), List.map_append⟩

/-! ## Registered actions -/

/-- **The registered actions stay in front.** -/
theorem isPrefix_entries : small.actions.entries <+: large.actions.entries := by
  have hoffers : manifest.offers (front ++ back) = manifest.offers front ++ manifest.offers back :=
    List.flatMap_append
  rw [entries_of_prepare hsmall, entries_of_prepare hlarge]
  show _ <+: firstOf _ _ (manifest.offers (front ++ back))
  rw [hoffers]
  exact isPrefix_firstOf _ _ _ _

/-- **An earlier module owns an action exactly if it owns one without the appended modules.** -/
theorem isOwner_iff_of_append (hname : name ∈ front) :
    large.actions.isOwner name = true ↔ small.actions.isOwner name = true := by
  unfold ActionRegistry.isOwner
  simp only [List.any_eq_true, beq_iff_eq]
  constructor
  · rintro ⟨⟨action, owner⟩, hmem, rfl⟩
    -- the module is among the earlier ones, so one of these is the first that has the action
    have hfirst := (mem_entries_iff hlarge).mp hmem
    have heligible := List.find?_some hfirst
    have hfront : (front.find? fun name => (manifest.eligible name).contains action).isSome :=
      List.find?_isSome.mpr ⟨_, hname, heligible⟩
    obtain ⟨first, hfound⟩ := Option.isSome_iff_exists.mp hfront
    rw [show (⟨className, nspace, front ++ back⟩ : Settings).modules = front ++ back from rfl,
      List.find?_append, hfound, Option.some_or] at hfirst
    exact ⟨(action, owner), (mem_entries_iff hsmall).mpr (hfound.trans hfirst), rfl⟩
  · rintro ⟨entry, hmem, hentry⟩
    exact ⟨entry, (isPrefix_entries hsmall hlarge).subset hmem, hentry⟩

/-! ## The document -/

/-- An action that was registered has the forwarding methods that it had. -/
theorem planOf_eq_of_append {entry : String × String} (h : entry ∈ small.actions.entries) :
    large.planOf entry = small.planOf entry := by
  obtain ⟨action, owner⟩ := entry
  obtain ⟨found, hfound, hmodule, -⟩ := module?_of_registered hsmall h
  obtain ⟨found', hfound', hmodule', -⟩ :=
    module?_of_registered hlarge ((isPrefix_entries hsmall hlarge).subset h)
  obtain rfl := Option.some.inj (hfound'.symm.trans hfound)
  obtain ⟨contributed, others, hfront, rfl⟩ := Generator.exists_prepare_of_append hlarge
  obtain rfl := Except.ok.inj (hsmall.symm.trans hfront)
  unfold Generator.planOf Generator.descriptor?
  rw [hmodule, hmodule']

/-- **The forwarding methods stay in front.** -/
theorem isPrefix_planTexts : small.planTexts <+: large.planTexts := by
  obtain ⟨more, hmore⟩ := isPrefix_entries hsmall hlarge
  have hplan : small.plan = small.actions.entries.flatMap large.planOf :=
    List.flatMap_congr fun entry hentry => (planOf_eq_of_append hsmall hlarge hentry).symm
  unfold Generator.planTexts
  rw [hplan, Generator.plan, ← hmore, List.flatMap_append, List.map_append]
  exact List.prefix_append _ _

/-- **The imports stay in front.** -/
theorem isPrefix_imports : small.imports <+: large.imports := by
  obtain ⟨more, hmore⟩ := exists_modules_eq_append hsmall hlarge
  have howners : small.modules.filter (fun module => large.actions.isOwner module.name)
      = small.modules.filter fun module => small.actions.isOwner module.name := by
    refine List.filter_congr fun module hmodule => ?_
    rw [Bool.eq_iff_iff]
    exact isOwner_iff_of_append hsmall hlarge (name_mem_modules hsmall hmodule)
  unfold Generator.imports
  rw [hmore, List.filter_append, howners]
  exact (isPrefix_firstOf _ _ _ _).map _

end Appended

/-- **What was generated stays in front when modules are appended.** The earlier modules can be
prepared without the appended ones, and their registered actions, forwarding methods and imports come
first among those of all modules, each as it was. -/
theorem isPrefix_of_append
    (hlarge : manifest.prepare ⟨className, nspace, front ++ back⟩ = .ok large) :
    ∃ small first document, manifest.prepare ⟨className, nspace, front⟩ = .ok small ∧
      small.produce = .ok first ∧ large.produce = .ok document ∧
      small.actions.entries <+: large.actions.entries ∧
      first.methods <+: document.methods ∧ first.imports <+: document.imports := by
  obtain ⟨small, hsmall⟩ : ∃ small, manifest.prepare ⟨className, nspace, front⟩ = .ok small := by
    obtain ⟨contributed, -, hfront, -⟩ := Generator.exists_prepare_of_append hlarge
    exact ⟨_, hfront⟩
  obtain ⟨first, hfirst⟩ := exists_produce hsmall
  obtain ⟨document, hdocument⟩ := exists_produce hlarge
  refine ⟨small, first, document, hsmall, hfirst, hdocument, isPrefix_entries hsmall hlarge, ?_, ?_⟩
  · rw [Generator.eq_documentOf_plan (.of_prepare hsmall) hfirst,
      Generator.eq_documentOf_plan (.of_prepare hlarge) hdocument]
    exact isPrefix_planTexts hsmall hlarge
  · rw [Generator.eq_documentOf_plan (.of_prepare hsmall) hfirst,
      Generator.eq_documentOf_plan (.of_prepare hlarge) hdocument]
    exact isPrefix_imports hsmall hlarge

/-- The first module is appended once more, behind a module of the same type and one that brings in
another type. -/
theorem isPrefix_of_append_again :
    let manifest : Manifest := {
      modules := [
        { name := "Web", typeName := "Child" },
        { name := "Quiet", typeName := "Child", onlyActions := ["open"] },
        { name := "Db", typeName := "Base" }]
      types := .ofList [
        { name := "Base"
          methods := [{ name := "click" }, { name := "open" }, { name := "seeText" }] },
        { name := "Child", parent := some "Base"
          methods := [{ name := "dontSeeText" }, { name := "click", visibility := .isProtected }] }] }
    ∃ large small first document,
      manifest.prepare ⟨"Acceptance", "Tests", ["Web"] ++ ["Quiet", "Db", "Web"]⟩ = .ok large ∧
      manifest.prepare ⟨"Acceptance", "Tests", ["Web"]⟩ = .ok small ∧
      small.produce = .ok first ∧ large.produce = .ok document ∧
      small.actions.entries = [("dontSeeText", "Web"), ("open", "Web"), ("seeText", "Web")] ∧
      large.actions.entries = small.actions.entries ++ [("click", "Db")] ∧
      first.methods <+: document.methods ∧ first.imports <+: document.imports := by
  intro manifest
  obtain ⟨large, hlarge, hentries⟩ : ∃ large, manifest.prepare
      ⟨"Acceptance", "Tests", ["Web"] ++ ["Quiet", "Db", "Web"]⟩ = .ok large ∧
        large.actions.entries = [("dontSeeText", "Web"), ("open", "Web"), ("seeText", "Web")]
          ++ [("click", "Db")] := ⟨_, rfl, by decide +kernel⟩
  obtain ⟨small, first, document, hsmall, hfirst, hdocument, -, hmethods, himports⟩ :=
    isPrefix_of_append hlarge
  have hsmallEntries : small.actions.entries
      = [("dontSeeText", "Web"), ("open", "Web"), ("seeText", "Web")] := by
    rw [entries_of_prepare hsmall]
    decide +kernel
  exact ⟨large, small, first, document, hlarge, hsmall, hfirst, hdocument, hsmallEntries,
    by rw [hentries, hsmallEntries], hmethods, himports⟩

end Manifest

end TestActor
