import TestActor.Generator
import TestActor.Proofs.FirstError
import TestActor.Proofs.Registration

/-!
# What a preparation makes

Preparing runs through the configured modules in order. It fails with the error of the first module
that cannot be used; otherwise the generator has one module for each configured name, and its
registry holds what these modules contribute.

## Main statements

* `Generator.prepare_eq_ok_iff`: the generator that a preparation makes.
* `Generator.prepare_eq_error_iff`: how a preparation fails.
-/

namespace TestActor.Generator

variable {settings : Settings} {source : ModuleSource} {types : Introspector} {g : Generator}

/-! ## One module -/

/-- The module of a configured name with the actions of that module. -/
def contribution (source : ModuleSource) (name : String) :
    Except GenerateError (ModuleInstance × List String) := do
  let module ← source.instantiate name
  return (module, source.actions module)

theorem contributions_eq_mapM (names : List String) :
    contributions source names = names.mapM (contribution source) := rfl

/-- What one configured name contributes: its module with the actions of that module. -/
def Contributes (source : ModuleSource) (name : String)
    (contributed : ModuleInstance × List String) : Prop :=
  source.instantiate name = .ok contributed.1 ∧ contributed.2 = source.actions contributed.1

theorem contribution_eq_ok_iff {name : String} {contributed : ModuleInstance × List String} :
    contribution source name = .ok contributed ↔ Contributes source name contributed := by
  rw [contribution, bind_eq_ok_iff]
  constructor
  · rintro ⟨module, hmodule, h⟩
    rw [← Except.ok.inj h]
    exact ⟨hmodule, rfl⟩
  · rintro ⟨hmodule, hactions⟩
    exact ⟨contributed.1, hmodule, by rw [← hactions]; rfl⟩

/-- Every contribution comes from a configured name. -/
theorem exists_contributes_of_mem {names : List String}
    {all : List (ModuleInstance × List String)} {contributed : ModuleInstance × List String}
    (hall : List.Forall₂ (Contributes source) names all) (h : contributed ∈ all) :
    ∃ name ∈ names, Contributes source name contributed := by
  induction hall with
  | nil => simp at h
  | @cons name first names rest hfirst _ ih =>
    rcases List.mem_cons.mp h with rfl | h
    · exact ⟨name, List.mem_cons_self, hfirst⟩
    · obtain ⟨other, hother, hc⟩ := ih h
      exact ⟨other, List.mem_cons_of_mem _ hother, hc⟩

theorem exists_contribution_iff {name : String} :
    (∃ contributed, contribution source name = .ok contributed) ↔
      ∃ module, source.instantiate name = .ok module := by
  simp only [contribution_eq_ok_iff]
  exact ⟨fun ⟨c, h, _⟩ => ⟨c.1, h⟩, fun ⟨module, h⟩ => ⟨(module, source.actions module), h, rfl⟩⟩

theorem contribution_eq_error_iff {name : String} {e : GenerateError} :
    contribution source name = .error e ↔ source.instantiate name = .error e := by
  rw [contribution, bind_eq_error_iff]
  refine or_iff_left ?_
  rintro ⟨module, -, h⟩
  cases h

/-! ## All modules -/

/-- **A preparation makes a generator of all configured modules and of what they contribute.** -/
theorem prepare_eq_ok_iff :
    prepare settings source types = .ok g ↔
      ∃ contributed, List.Forall₂ (Contributes source) settings.modules contributed ∧
        g = ⟨settings, types, contributed.map (·.1), .ofContributions contributed,
          currentVersion⟩ := by
  rw [prepare, bind_eq_ok_iff]
  refine exists_congr fun contributed => and_congr ?_ ?_
  · rw [contributions_eq_mapM, mapM_eq_ok_iff]
    simp only [contribution_eq_ok_iff]
  · exact ⟨fun h => (Except.ok.inj h).symm, fun h => by rw [h]; rfl⟩

theorem settings_of_prepare (h : prepare settings source types = .ok g) :
    g.settings = settings := by
  obtain ⟨contributed, -, rfl⟩ := prepare_eq_ok_iff.mp h
  rfl

theorem types_of_prepare (h : prepare settings source types = .ok g) : g.types = types := by
  obtain ⟨contributed, -, rfl⟩ := prepare_eq_ok_iff.mp h
  rfl

theorem exists_prepare_iff :
    (∃ g, prepare settings source types = .ok g) ↔
      ∀ name ∈ settings.modules, ∃ module, source.instantiate name = .ok module := by
  simp only [← exists_contribution_iff]
  rw [← exists_mapM_eq_ok_iff]
  constructor
  · rintro ⟨g, hg⟩
    obtain ⟨contributed, hcontributed, -⟩ := bind_eq_ok_iff.mp hg
    exact ⟨contributed, hcontributed⟩
  · rintro ⟨contributed, hcontributed⟩
    exact ⟨_, bind_eq_ok_iff.mpr ⟨contributed, hcontributed, rfl⟩⟩

/-- **A preparation fails with the error of the first module that cannot be used.** -/
theorem prepare_eq_error_iff {e : GenerateError} :
    prepare settings source types = .error e ↔
      ∃ before name after, settings.modules = before ++ name :: after ∧
        (∀ b ∈ before, ∃ module, source.instantiate b = .ok module) ∧
        source.instantiate name = .error e := by
  have hrun : prepare settings source types = .error e ↔
      contributions source settings.modules = .error e := by
    rw [prepare, bind_eq_error_iff]
    refine or_iff_left ?_
    rintro ⟨contributed, -, h⟩
    cases h
  rw [hrun, contributions_eq_mapM, mapM_eq_error_iff]
  simp only [exists_contribution_iff, contribution_eq_error_iff]

/-! ## Prepared generators -/

/-- Preparation makes the generator, under its own version or another. -/
def IsPrepared (g : Generator) : Prop :=
  ∃ settings source types prepared version,
    prepare settings source types = .ok prepared ∧ g = prepared.withVersion version

theorem IsPrepared.of_prepare (h : prepare settings source types = .ok g) : g.IsPrepared := by
  refine ⟨settings, source, types, g, g.version, h, rfl⟩

theorem IsPrepared.nodup (hg : g.IsPrepared) : (g.actions.entries.map (·.1)).Nodup := by
  obtain ⟨settings, source, types, prepared, version, hprepare, rfl⟩ := hg
  obtain ⟨contributed, -, rfl⟩ := prepare_eq_ok_iff.mp hprepare
  exact ActionRegistry.nodup_ofContributions contributed

end TestActor.Generator
