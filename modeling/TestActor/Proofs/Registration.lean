import TestActor.ActionRegistry
import TestActor.FirstOf

/-!
# What a registry holds

Registering goes through all contributed actions in order and keeps the first of each name. The
names that are taken are carried along as the names that `firstOf` has met.

## Main statement

* `ActionRegistry.entries_ofContributions`: the entries of a registry, said without registering.
-/

namespace TestActor

/-- Elements whose keys are new and differ from each other are all kept. -/
theorem firstOf_eq_self {α : Type} {key : α → String} {met : List String} {xs : List α}
    (hnodup : (xs.map key).Nodup) (hmet : ∀ x ∈ xs, key x ∉ met) : firstOf key met xs = xs := by
  induction xs generalizing met with
  | nil => rfl
  | cons x rest ih =>
    rw [List.map_cons, List.nodup_cons] at hnodup
    have hx : ¬ met.contains (key x) = true := by simpa using hmet x List.mem_cons_self
    rw [firstOf, if_neg hx, ih hnodup.2]
    intro y hy hm
    rcases List.mem_cons.mp hm with he | hm
    · exact hnodup.1 (he ▸ List.mem_map_of_mem hy)
    · exact hmet y (List.mem_cons_of_mem _ hy) hm

namespace ActionRegistry

/-- The actions of modules with the names of these modules, in order. -/
def contributed (contributions : List (ModuleInstance × List String)) : List (String × String) :=
  contributions.flatMap fun (module, actions) => actions.map (·, module.name)

/-- Registering in order adds the first of each name that is not taken. -/
theorem entries_foldl_register (r : ActionRegistry) (pairs : List (String × String)) :
    (pairs.foldl (fun r pair => (r.register pair.1 pair.2).2) r).entries
      = r.entries ++ firstOf (·.1) r.taken pairs := by
  induction pairs generalizing r with
  | nil => simp [firstOf]
  | cons pair rest ih =>
    rw [List.foldl_cons, ih, firstOf, register]
    split
    · rfl
    · simp

/-- What modules contribute is registered action by action. -/
theorem ofContributions_eq_foldl (contributions : List (ModuleInstance × List String)) :
    ofContributions contributions
      = (contributed contributions).foldl (fun r pair => (r.register pair.1 pair.2).2) empty := by
  rw [contributed, List.foldl_flatMap]
  simp only [List.foldl_map]
  rfl

/-- **A registry holds the first of each name among all contributed actions.** -/
theorem entries_ofContributions (contributions : List (ModuleInstance × List String)) :
    (ofContributions contributions).entries = firstOf (·.1) [] (contributed contributions) := by
  rw [ofContributions_eq_foldl, entries_foldl_register]
  rfl

theorem nodup_ofContributions (contributions : List (ModuleInstance × List String)) :
    ((ofContributions contributions).entries.map (·.1)).Nodup := by
  rw [entries_ofContributions]
  exact nodup_map_firstOf _ _ _

/-- Every registered action was contributed by the module that owns it. -/
theorem exists_contribution {contributions : List (ModuleInstance × List String)}
    {action owner : String} (h : (action, owner) ∈ (ofContributions contributions).entries) :
    ∃ module actions, (module, actions) ∈ contributions ∧ module.name = owner ∧
      action ∈ actions := by
  rw [entries_ofContributions] at h
  obtain ⟨⟨module, actions⟩, hmem, hpair⟩ := List.mem_flatMap.mp (mem_firstOf h).1
  obtain ⟨a, ha, heq⟩ := List.mem_map.mp hpair
  obtain ⟨rfl, rfl⟩ := Prod.mk.inj heq
  exact ⟨module, actions, hmem, rfl, ha⟩

end ActionRegistry

end TestActor
