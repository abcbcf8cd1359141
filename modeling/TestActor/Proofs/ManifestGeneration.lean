import TestActor.Proofs.ManifestActions
import TestActor.Proofs.Production

/-!
# Generating from a manifest

A manifest answers both what modules there are and what their types declare. The walk that collects
the actions of a module and the lookup of a method follow the same ancestry, so every action that
is registered is found again, whatever parents the types name.

## Main statement

* `Manifest.generates`: a generation fails only at its first module that cannot be used.
-/

namespace TestActor.Manifest

variable {manifest : Manifest} {settings : Settings} {name : String} {g : Generator}

/-! ## Modules in use -/

/-- The module is listed, with a type that is described. -/
def IsUsable (manifest : Manifest) (name : String) : Prop :=
  ∃ entry decl, manifest.module? name = some entry ∧
    manifest.types.get? entry.typeName = some decl

/-- Why a module cannot be used. -/
inductive Refuses (manifest : Manifest) (name : String) : ModuleFault → Prop
  | unlisted (h : manifest.module? name = none) : Refuses manifest name (.unknown name)
  | undescribed {entry : ModuleEntry} (h : manifest.module? name = some entry)
      (htype : manifest.types.get? entry.typeName = none) :
      Refuses manifest name (.undescribed name entry.typeName)

theorem name_of_module? {entry : ModuleEntry} (h : manifest.module? name = some entry) :
    entry.name = name := by
  simpa using List.find?_some h

/-- The module of a usable name has this name and the type of its entry. -/
theorem instantiate_of_described {entry : ModuleEntry} {decl : TypeDecl}
    (hentry : manifest.module? name = some entry)
    (htype : manifest.types.get? entry.typeName = some decl) :
    manifest.instantiate name = .ok ⟨name, entry.typeName⟩ := by
  have hcontains : manifest.types.contains entry.typeName = true := by
    rw [TypeTable.contains, htype]
    rfl
  rw [instantiate, hentry]
  simp only [if_pos hcontains, name_of_module? hentry]

theorem instantiate_of_refuses {fault : ModuleFault} (h : manifest.Refuses name fault) :
    manifest.instantiate name = .error (.configuration fault) := by
  cases h with
  | unlisted hentry => rw [instantiate, hentry]
  | undescribed hentry htype =>
    rw [instantiate, hentry]
    simp only [TypeTable.contains, htype, Option.isSome_none, Bool.false_eq_true, if_false]

theorem isUsable_or_refuses (manifest : Manifest) (name : String) :
    manifest.IsUsable name ∨ ∃ fault, manifest.Refuses name fault := by
  cases hentry : manifest.module? name with
  | none => exact Or.inr ⟨_, .unlisted hentry⟩
  | some entry =>
    cases htype : manifest.types.get? entry.typeName with
    | none => exact Or.inr ⟨_, .undescribed hentry htype⟩
    | some decl => exact Or.inl ⟨entry, decl, hentry, htype⟩

theorem instantiate_eq_ok_iff {module : ModuleInstance} :
    manifest.instantiate name = .ok module ↔
      ∃ entry decl, manifest.module? name = some entry ∧
        manifest.types.get? entry.typeName = some decl ∧ module = ⟨name, entry.typeName⟩ := by
  constructor
  · intro h
    rcases manifest.isUsable_or_refuses name with ⟨entry, decl, hentry, htype⟩ | ⟨fault, hfault⟩
    · rw [instantiate_of_described hentry htype] at h
      exact ⟨entry, decl, hentry, htype, (Except.ok.inj h).symm⟩
    · rw [instantiate_of_refuses hfault] at h
      cases h
  · rintro ⟨entry, decl, hentry, htype, rfl⟩
    exact instantiate_of_described hentry htype

theorem instantiate_eq_error_iff {e : GenerateError} :
    manifest.instantiate name = .error e ↔
      ∃ fault, manifest.Refuses name fault ∧ e = .configuration fault := by
  constructor
  · intro h
    rcases manifest.isUsable_or_refuses name with ⟨entry, decl, hentry, htype⟩ | ⟨fault, hfault⟩
    · rw [instantiate_of_described hentry htype] at h
      cases h
    · rw [instantiate_of_refuses hfault] at h
      exact ⟨fault, hfault, (Except.error.inj h).symm⟩
  · rintro ⟨fault, hfault, rfl⟩
    exact instantiate_of_refuses hfault

theorem exists_instantiate_iff :
    (∃ module, manifest.instantiate name = .ok module) ↔ manifest.IsUsable name := by
  simp only [instantiate_eq_ok_iff]
  constructor
  · rintro ⟨module, entry, decl, hentry, htype, -⟩
    exact ⟨entry, decl, hentry, htype⟩
  · rintro ⟨entry, decl, hentry, htype⟩
    exact ⟨_, entry, decl, hentry, htype, rfl⟩

/-! ## Registered actions -/

/-- A preparation from a manifest, which lists the modules and describes their types. -/
def prepare (manifest : Manifest) (settings : Settings) : Except GenerateError Generator :=
  Generator.prepare settings manifest.source manifest.types.introspector

/-- **The first module that carries the name of an owner contributed the action.** A name has one
module in a manifest, however often it is configured. -/
theorem module?_of_registered (hg : manifest.prepare settings = .ok g) {action owner : String}
    (h : (action, owner) ∈ g.actions.entries) :
    ∃ entry, manifest.module? owner = some entry ∧
      g.module? owner = some ⟨owner, entry.typeName⟩ ∧
      action ∈ manifest.actions ⟨owner, entry.typeName⟩ := by
  obtain ⟨contributed, hall, rfl⟩ := Generator.prepare_eq_ok_iff.mp hg
  have hinstance : ∀ c ∈ contributed, c.2 = manifest.actions c.1 ∧
      ∃ entry, manifest.module? c.1.name = some entry ∧ c.1 = ⟨c.1.name, entry.typeName⟩ := by
    intro c hc
    obtain ⟨name, -, hname, hactions⟩ := Generator.exists_contributes_of_mem hall hc
    obtain ⟨entry, decl, hentry, htype, hmodule⟩ := instantiate_eq_ok_iff.mp hname
    refine ⟨hactions, entry, ?_, ?_⟩
    · rw [hmodule]
      exact hentry
    · rw [hmodule]
  -- The owner's name belongs to the contributing module; the first module that carries the name
  -- has the same entry and is therefore the same.
  obtain ⟨module, actions, hmem, rfl, haction⟩ := ActionRegistry.exists_contribution h
  obtain ⟨hactions, entry, hentry, hmodule⟩ := hinstance _ hmem
  refine ⟨entry, hentry, ?_, ?_⟩
  · show (contributed.map (·.1)).find? (·.name == module.name) = _
    cases hfind : (contributed.map (·.1)).find? (·.name == module.name) with
    | none =>
      have := List.find?_eq_none.mp hfind module (List.mem_map_of_mem (f := (·.1)) hmem)
      simp at this
    | some first =>
      obtain ⟨c, hc, rfl⟩ := List.mem_map.mp (List.mem_of_find?_eq_some hfind)
      have hfirst : c.1.name = module.name := by simpa using List.find?_some hfind
      obtain ⟨-, other, hother, hc⟩ := hinstance c hc
      rw [hfirst, hentry] at hother
      rw [hc, hfirst, Option.some.inj hother]
  · rw [← hmodule, ← hactions]
    exact haction

/-- The descriptor of an action is read from the declaration that is seen from its module. -/
theorem descriptor?_of_findMethod (hg : manifest.prepare settings = .ok g) {action owner : String}
    {module : ModuleInstance} {decl : TypeDecl} {m : MethodDecl}
    (hmodule : g.module? owner = some module)
    (hseen : manifest.types.findMethod module.typeName action = some (decl, m)) :
    g.descriptor? action owner = some ⟨decl.name, action, m.parameters,
      DocComment.text (Descriptor.rawDoc manifest.types.introspector decl.name action)⟩ := by
  rw [Generator.descriptor?, hmodule, Option.bind_some, Generator.types_of_prepare hg]
  exact Descriptor.resolve_of_findMethod hseen

/-- **Every registered action has a descriptor.** -/
theorem isSome_descriptor? (hg : manifest.prepare settings = .ok g) {action owner : String}
    (h : (action, owner) ∈ g.actions.entries) :
    (g.descriptor? action owner).isSome := by
  obtain ⟨entry, -, hmodule, haction⟩ := module?_of_registered hg h
  obtain ⟨-, decl, m, -, -, hseen, -⟩ := exists_findMethod_of_mem_actions haction
  rw [descriptor?_of_findMethod hg hmodule hseen]
  rfl

theorem exists_produce (hg : manifest.prepare settings = .ok g) :
    ∃ document, g.produce = .ok document := by
  rw [Generator.exists_produce_iff (.of_prepare hg)]
  exact fun entry hentry => isSome_descriptor? hg hentry

/-! ## The generation -/

/-- **A generation from a manifest fails only at its first module that cannot be used.** The
preparation succeeds when every configured module is listed with a described type, fails with the
fault of the first one that is not, and whatever was prepared is produced. Nothing is asked of the
types: parents may be missing or lead back, and methods may be hidden by nearer ones. -/
theorem generates (manifest : Manifest) (settings : Settings) :
    ((∃ g, manifest.prepare settings = .ok g) ↔
      ∀ name ∈ settings.modules, manifest.IsUsable name) ∧
    (∀ e, manifest.prepare settings = .error e ↔
      ∃ before name after fault, settings.modules = before ++ name :: after ∧
        (∀ b ∈ before, manifest.IsUsable b) ∧ manifest.Refuses name fault ∧
        e = .configuration fault) ∧
    ∀ g, manifest.prepare settings = .ok g → ∃ document, g.produce = .ok document := by
  refine ⟨?_, fun e => ?_, fun g hg => exists_produce hg⟩
  · simp only [← exists_instantiate_iff]
    exact Generator.exists_prepare_iff
  · rw [prepare, Generator.prepare_eq_error_iff]
    simp only [← exists_instantiate_iff]
    constructor
    · rintro ⟨before, name, after, hsplit, hbefore, herror⟩
      obtain ⟨fault, hfault, he⟩ := instantiate_eq_error_iff.mp herror
      exact ⟨before, name, after, fault, hsplit, hbefore, hfault, he⟩
    · rintro ⟨before, name, after, fault, hsplit, hbefore, hfault, rfl⟩
      exact ⟨before, name, after, hsplit, hbefore, instantiate_of_refuses hfault⟩

/-- The types of a module may lead back to each other, and the module may be configured twice. -/
theorem generates_from_cycle :
    let manifest : Manifest := {
      modules := [{ name := "Web", typeName := "A" }, { name := "Db", typeName := "B" }]
      types := .ofList [
        { name := "A", parent := some "B"
          methods := [{ name := "click" }, { name := "open", visibility := .isPrivate }] },
        { name := "B", parent := some "A"
          methods := [{ name := "open" }, { name := "seeText" }] }] }
    let settings : Settings := ⟨"Acceptance", "Tests", ["Web", "Db", "Web"]⟩
    ∃ g, manifest.prepare settings = .ok g ∧ ∃ document, g.produce = .ok document := by
  intro manifest settings
  have husable : ∀ name ∈ settings.modules, manifest.IsUsable name := by
    intro name hname
    simp only [settings, List.mem_cons, List.not_mem_nil, or_false] at hname
    rcases hname with rfl | rfl | rfl
    · exact ⟨_, _, rfl, rfl⟩
    · exact ⟨_, _, rfl, rfl⟩
    · exact ⟨_, _, rfl, rfl⟩
  obtain ⟨g, hg⟩ := (generates manifest settings).1.mpr husable
  exact ⟨g, hg, (generates manifest settings).2.2 g hg⟩

end TestActor.Manifest
