import TestActor.Proofs.ManifestGeneration
import TestActor.Proofs.SharedTypes

/-!
# Entries that are added to a manifest

A generation sees of a manifest only what the configured modules lead to. A module that is not
configured is never looked up. A type can be met in four ways: as the type of a module, as the
parent or an interface of another type, or as the declaring type of a method, which is one of these
again. So a type whose name the manifest does not mention is met in none of them, and a manifest
with more modules and types gives the same generation.

An added type must not have a mentioned name even if no type of that name is declared. The walk
along an ancestry ends at such a name, and with the added type it would go on.

## Main definitions

* `Inserted`: a list with further elements among its own.
* `ManifestFile.Mentions`: the names of types that a file uses.
* `ManifestFile.IsWithin`: the file with further modules and types.

## Main statements

* `ManifestFile.IsWithin.agreesOn`: the mentioned names are declared as before.
* `Manifest.prepare_enlarged`: the same generator is prepared, with another introspector.
* `Manifest.generation_of_enlarged`: the same generation, or the same failure.
-/

namespace TestActor

/-! ## Lists with more elements -/

/-- The second list is the first with added elements among its own. -/
inductive Inserted {α : Type} (Added : α → Prop) : List α → List α → Prop
  | nil : Inserted Added [] []
  | keep {x : α} {xs ys : List α} (h : Inserted Added xs ys) : Inserted Added (x :: xs) (x :: ys)
  | add {y : α} {xs ys : List α} (hy : Added y) (h : Inserted Added xs ys) :
      Inserted Added xs (y :: ys)

namespace Inserted

variable {α : Type} {Added : α → Prop} {p : α → Bool} {xs ys : List α}

/-- What no added element satisfies is satisfied by the same elements. -/
theorem filter_eq (h : Inserted Added xs ys) (hp : ∀ y, Added y → p y = false) :
    ys.filter p = xs.filter p := by
  induction h with
  | nil => rfl
  | @keep x xs ys _ ih => rw [List.filter_cons, List.filter_cons, ih]
  | add hy _ ih => rw [List.filter_cons_of_neg (by simp [hp _ hy]), ih]

theorem find?_eq (h : Inserted Added xs ys) (hp : ∀ y, Added y → p y = false) :
    ys.find? p = xs.find? p := by
  rw [← List.head?_filter, ← List.head?_filter, h.filter_eq hp]

end Inserted

/-! ## Files with more entries -/

namespace ManifestFile

/-- The file uses the name for a type: as the type of a module, as a type, as a parent or as an
interface. -/
def Mentions (file : ManifestFile) (name : String) : Prop :=
  (∃ entry ∈ file.modules, entry.typeName = name) ∨
    ∃ decl ∈ file.types, decl.name = name ∨ decl.parent = some name ∨ name ∈ decl.interfaces

instance (file : ManifestFile) (name : String) : Decidable (file.Mentions name) :=
  inferInstanceAs (Decidable ((∃ entry ∈ file.modules, entry.typeName = name) ∨
    ∃ decl ∈ file.types, decl.name = name ∨ decl.parent = some name ∨ name ∈ decl.interfaces))

/-- The other file has all entries of this one in their order, and among them modules that are not
configured and types that this one does not mention. -/
structure IsWithin (configured : List String) (file large : ManifestFile) : Prop where
  modules : Inserted (fun entry => entry.name ∉ configured) file.modules large.modules
  types : Inserted (fun decl => ¬ file.Mentions decl.name) file.types large.types

variable {file large : ManifestFile} {configured : List String} {name other : String}
  {decl : TypeDecl}

/-- The type of a name is one of the listed types. -/
theorem mem_of_get?_ofList {types : List TypeDecl}
    (h : (TypeTable.ofList types).get? name = some decl) : decl ∈ types := by
  rw [TypeTable.get?_ofList] at h
  exact (List.mem_filter.mp (List.mem_of_getLast? h)).1

theorem mentions_parent (h : (TypeTable.ofList file.types).get? name = some decl)
    (hparent : decl.parent = some other) : file.Mentions other :=
  .inr ⟨decl, mem_of_get?_ofList h, .inr (.inl hparent)⟩

theorem mentions_interface (h : (TypeTable.ofList file.types).get? name = some decl)
    (hinterface : other ∈ decl.interfaces) : file.Mentions other :=
  .inr ⟨decl, mem_of_get?_ofList h, .inr (.inr hinterface)⟩

/-- **The mentioned names are declared as before**, and so are those that are not declared. -/
theorem IsWithin.agreesOn (h : file.IsWithin configured large) :
    TypeTable.AgreesOn file.Mentions (.ofList file.types) (.ofList large.types) where
  get? name hname := by
    rw [TypeTable.get?_ofList, TypeTable.get?_ofList, h.types.filter_eq]
    intro decl hadded
    by_contra hsame
    have hdecl : decl.name = name := by simpa using hsame
    exact hadded (hdecl ▸ hname)
  parent _ _ _ _ hdecl hparent := mentions_parent hdecl hparent

theorem IsWithin.find?_modules (h : file.IsWithin configured large) (hname : name ∈ configured) :
    large.modules.find? (·.name == name) = file.modules.find? (·.name == name) := by
  refine h.modules.find?_eq fun entry hadded => ?_
  by_contra hsame
  have hentry : entry.name = name := by simpa using hsame
  exact hadded (hentry ▸ hname)

end ManifestFile

/-! ## Generators with another introspector -/

namespace Generator

variable {g : Generator}

/-- The same generation with other answers about types. -/
def withTypes (g : Generator) (types : Introspector) : Generator :=
  { g with types }

theorem forwardersOf_withTypes {types : Introspector} {action owner : String}
    (h : (g.withTypes types).descriptor? action owner = g.descriptor? action owner) :
    (g.withTypes types).forwardersOf action owner = g.forwardersOf action owner := by
  have hmodule : (g.withTypes types).module? owner = g.module? owner := rfl
  unfold descriptor? at h
  unfold forwardersOf
  rw [hmodule] at h ⊢
  cases hfound : g.module? owner with
  | none => rfl
  | some module =>
    rw [hfound, Option.bind_some, Option.bind_some] at h
    simp only [h]

/-- **A production asks about the types of registered actions only.** -/
theorem produce_withTypes {types : Introspector}
    (h : ∀ entry ∈ g.actions.entries,
      (g.withTypes types).descriptor? entry.1 entry.2 = g.descriptor? entry.1 entry.2) :
    (g.withTypes types).produce = g.produce := by
  have hforwarders : (g.withTypes types).forwarders [] g.actions.entries
      = g.forwarders [] g.actions.entries := by
    rw [forwarders_eq, forwarders_eq]
    refine congrArg (List.flatten <$> ·) (mapM_congr fun entry hentry => ?_)
    exact forwardersOf_withTypes (h entry (mem_firstOf hentry).1)
  have hactions : (g.withTypes types).actions = g.actions := rfl
  rw [produce_eq, produce_eq, hactions, hforwarders]
  rfl

end Generator

/-! ## Generations -/

namespace Manifest

open ManifestFile

variable {file large : ManifestFile} {manifest wide : Manifest} {settings : Settings}
  {configured : List String} {g : Generator} {name : String}

/-- An accepted file has a manifest of its own modules and types. -/
theorem eq_of_ofFile (h : ofFile file = .ok manifest) :
    manifest = ⟨file.modules, .ofList file.types⟩ := by
  rw [ofFile] at h
  cases hfault : file.fault? with
  | some fault => simp [hfault] at h
  | none => simpa [hfault] using h.symm

/-- Types of modules are mentioned. -/
theorem mentions_typeName {entry : ModuleEntry} (hmanifest : ofFile file = .ok manifest)
    (hentry : manifest.module? name = some entry) : file.Mentions entry.typeName := by
  rw [eq_of_ofFile hmanifest] at hentry
  exact .inl ⟨entry, List.mem_of_find?_eq_some hentry, rfl⟩

section Enlarged

variable (hmanifest : ofFile file = .ok manifest) (hwide : ofFile large = .ok wide)
  (h : file.IsWithin configured large)

include hmanifest hwide h

theorem types_agreesOn : TypeTable.AgreesOn file.Mentions manifest.types wide.types := by
  rw [eq_of_ofFile hmanifest, eq_of_ofFile hwide]
  exact h.agreesOn

theorem module?_enlarged (hname : name ∈ configured) :
    wide.module? name = manifest.module? name := by
  rw [eq_of_ofFile hmanifest, eq_of_ofFile hwide]
  exact h.find?_modules hname

theorem instantiate_enlarged (hname : name ∈ configured) :
    wide.instantiate name = manifest.instantiate name := by
  unfold instantiate
  rw [module?_enlarged hmanifest hwide h hname]
  cases hentry : manifest.module? name with
  | none => rfl
  | some entry =>
    have htype := mentions_typeName hmanifest hentry
    simp only [(types_agreesOn hmanifest hwide h).contains htype]

/-- **A configured module has the actions that it had.** -/
theorem actions_enlarged {module : ModuleInstance} (hname : module.name ∈ configured)
    (htype : file.Mentions module.typeName) : wide.actions module = manifest.actions module := by
  unfold actions reach
  rw [module?_enlarged hmanifest hwide h hname,
    (types_agreesOn hmanifest hwide h).ancestry htype]

theorem contribution_enlarged (hname : name ∈ configured) :
    Generator.contribution wide.source name = Generator.contribution manifest.source name := by
  have hinstance : wide.source.instantiate name = manifest.source.instantiate name :=
    instantiate_enlarged hmanifest hwide h hname
  unfold Generator.contribution
  rw [hinstance]
  cases hmodule : manifest.source.instantiate name with
  | error e => rfl
  | ok module =>
    obtain ⟨entry, decl, hentry, -, rfl⟩ := instantiate_eq_ok_iff.mp hmodule
    have hactions : wide.actions ⟨name, entry.typeName⟩ = manifest.actions ⟨name, entry.typeName⟩ :=
      actions_enlarged hmanifest hwide h hname (mentions_typeName hmanifest hentry)
    show Except.ok (ModuleInstance.mk name entry.typeName, wide.actions ⟨name, entry.typeName⟩) = _
    rw [hactions]
    rfl

end Enlarged

section Configured

variable (hmanifest : ofFile file = .ok manifest) (hwide : ofFile large = .ok wide)
  (h : file.IsWithin settings.modules large)

include hmanifest hwide h

/-- **The same generator is prepared**, but for the introspector, which answers from more types. -/
theorem prepare_enlarged :
    wide.prepare settings
      = (·.withTypes wide.types.introspector) <$> manifest.prepare settings := by
  have hcontributions : Generator.contributions wide.source settings.modules
      = Generator.contributions manifest.source settings.modules := by
    rw [Generator.contributions_eq_mapM, Generator.contributions_eq_mapM]
    exact mapM_congr fun name hname => contribution_enlarged hmanifest hwide h hname
  unfold prepare Generator.prepare
  rw [hcontributions]
  cases Generator.contributions manifest.source settings.modules with
  | error e => rfl
  | ok contributed => rfl

/-- A registered action has the descriptor that it had. -/
theorem descriptor?_enlarged (hg : manifest.prepare settings = .ok g) {action owner : String}
    (hentry : (action, owner) ∈ g.actions.entries) :
    (g.withTypes wide.types.introspector).descriptor? action owner
      = g.descriptor? action owner := by
  obtain ⟨entry, hfound, hmodule, -⟩ := module?_of_registered hg hentry
  have hwidened : (g.withTypes wide.types.introspector).module? owner = g.module? owner := rfl
  have hparents := types_agreesOn hmanifest hwide h
  have hinterfaces : ∀ name decl interface, file.Mentions name →
      manifest.types.get? name = some decl → interface ∈ decl.interfaces →
        file.Mentions interface := by
    intro name decl interface _ hdecl hmem
    rw [eq_of_ofFile hmanifest] at hdecl
    exact mentions_interface hdecl hmem
  unfold Generator.descriptor?
  rw [hwidened, hmodule, Option.bind_some, Option.bind_some, Generator.types_of_prepare hg]
  exact hparents.resolve (mentions_typeName hmanifest hfound) hinterfaces

theorem produce_enlarged (hg : manifest.prepare settings = .ok g) :
    (g.withTypes wide.types.introspector).produce = g.produce :=
  Generator.produce_withTypes fun _ hentry => descriptor?_enlarged hmanifest hwide h hg hentry

/-- **A generation depends only on what the configured modules lead to.** With further modules that
are not configured and further types that are not mentioned, it fails with the same fault, or the
generators have the same modules, registry and fingerprint and produce the same document. -/
theorem generation_of_enlarged :
    (∃ fault, manifest.prepare settings = .error (.configuration fault) ∧
      wide.prepare settings = .error (.configuration fault)) ∨
    ∃ g g' document, manifest.prepare settings = .ok g ∧ wide.prepare settings = .ok g' ∧
      g'.settings = g.settings ∧ g'.modules = g.modules ∧ g'.actions = g.actions ∧
      g'.fingerprint = g.fingerprint ∧
      g.produce = .ok document ∧ g'.produce = .ok document := by
  have hwidened := prepare_enlarged hmanifest hwide h
  cases hg : manifest.prepare settings with
  | error e =>
    obtain ⟨before, name, after, -, -, hfail⟩ := Generator.prepare_eq_error_iff.mp hg
    obtain ⟨fault, -, rfl⟩ := instantiate_eq_error_iff.mp hfail
    rw [hg] at hwidened
    exact .inl ⟨fault, rfl, hwidened⟩
  | ok g =>
    obtain ⟨document, hdocument⟩ := exists_produce hg
    rw [hg] at hwidened
    exact .inr ⟨g, g.withTypes wide.types.introspector, document, rfl, hwidened, rfl, rfl, rfl, rfl,
      hdocument, (produce_enlarged hmanifest hwide h hg).trans hdocument⟩

end Configured

/-- A type whose parent and interface are not declared, among types that inherit from it and declare
its methods again. -/
theorem generation_among_heirs :
    let web : ModuleEntry := { name := "Web", typeName := "Child" }
    let child : TypeDecl := {
      name := "Child", parent := some "Missing", interfaces := ["Undeclared"]
      methods := [{ name := "click" }, { name := "seeText" }] }
    let file : ManifestFile := { modules := [web], types := [child] }
    let large : ManifestFile := {
      modules := [{ name := "Extra", typeName := "Heir" }, web]
      types := [
        { name := "Heir", parent := some "Child"
          methods := [{ name := "click", doc := some "/** */" }] },
        child, { name := "Spare", parent := some "Missing", methods := [{ name := "seeText" }] }] }
    let settings : Settings := ⟨"Acceptance", "Tests", ["Web"]⟩
    ∃ manifest wide g g' document, ofFile file = .ok manifest ∧ ofFile large = .ok wide ∧
      manifest.prepare settings = .ok g ∧ wide.prepare settings = .ok g' ∧
      g'.actions = g.actions ∧ g.actions.entries = [("click", "Web"), ("seeText", "Web")] ∧
      g.produce = .ok document ∧ g'.produce = .ok document := by
  intro web child file large settings
  have hmanifest : ofFile file = .ok ⟨file.modules, .ofList file.types⟩ := by decide +kernel
  have hwide : ofFile large = .ok ⟨large.modules, .ofList large.types⟩ := by decide +kernel
  have hwithin : file.IsWithin settings.modules large :=
    { modules := .add (by decide) (.keep .nil)
      types := .add (by decide) (.keep (.add (by decide) .nil)) }
  obtain ⟨g, hg, hentries⟩ : ∃ g, (⟨file.modules, .ofList file.types⟩ : Manifest).prepare settings
      = .ok g ∧ g.actions.entries = [("click", "Web"), ("seeText", "Web")] :=
    ⟨_, rfl, by decide +kernel⟩
  rcases generation_of_enlarged hmanifest hwide hwithin with
    ⟨fault, hfault, -⟩ | ⟨g₁, g', document, hg₁, hg', -, -, hactions, -, hproduce, hproduce'⟩
  · rw [hg] at hfault
    cases hfault
  · obtain rfl := Except.ok.inj (hg.symm.trans hg₁)
    exact ⟨_, _, g, g', document, hmanifest, hwide, hg, hg', hactions, hentries, hproduce,
      hproduce'⟩

end Manifest

end TestActor
