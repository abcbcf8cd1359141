import Mathlib.Data.List.Induction
import Mathlib.Data.List.Nodup
import TestActor.Proofs.Registration

/-!
# Calls on a registry

A registry keeps the names of its actions twice, in its entries and among the names that are taken,
and asks the one or the other. Whatever calls a registry was made by, the two agree: so a call is
answered by what the entries are, and the owner of an action is the module of the first call for it.

A registry of modules is made by such calls, one for each contributed action. Modules behind others
add what they would register alone, less the actions that the others own.

## Main definitions

* `ActionRegistry.ofCalls`: the answers of calls in order, and the registry after them.
* `ActionRegistry.Records`: what a registry keeps of the calls that it was made by.

## Main statements

* `ActionRegistry.Records.register`: what one call keeps.
* `ActionRegistry.records_ofCalls`: what any number of calls keeps.
* `ActionRegistry.registers_first_calls`: how calls are answered, and registries of more modules.
-/

namespace TestActor

/-- Elements whose keys were met are left out at once or afterwards. -/
theorem firstOf_eq_filter {α : Type} {key : α → String} {met later all : List String}
    (hall : ∀ k, k ∈ all ↔ k ∈ met ∨ k ∈ later) (xs : List α) :
    firstOf key all xs = (firstOf key later xs).filter fun x => key x ∉ met := by
  induction xs generalizing later all with
  | nil => rfl
  | cons x rest ih =>
    by_cases hlater : key x ∈ later
    · have hmem : key x ∈ all := (hall _).mpr (.inr hlater)
      rw [firstOf, firstOf, if_pos (by simpa using hmem), if_pos (by simpa using hlater), ih hall]
    · by_cases hmet : key x ∈ met
      · -- a key that was met is left out of what is kept
        have hmem : key x ∈ all := (hall _).mpr (.inl hmet)
        rw [firstOf, firstOf, if_pos (by simpa using hmem), if_neg (by simpa using hlater),
          List.filter_cons_of_neg (by simpa using hmet)]
        exact ih fun k => by rw [hall, List.mem_cons]; grind
      · have hmem : key x ∉ all := fun h => ((hall _).mp h).elim hmet hlater
        rw [firstOf, firstOf, if_neg (by simpa using hmem), if_neg (by simpa using hlater),
          List.filter_cons_of_pos (by simpa using hmet)]
        exact congrArg (x :: ·) (ih fun k => by simp only [List.mem_cons, hall]; grind)

namespace ActionRegistry

variable {calls : List (String × String)} {answers : List Bool} {r : ActionRegistry}

/-! ## Calls -/

/-- The answers of calls in order, and the registry after them. -/
def ofCalls (calls : List (String × String)) : List Bool × ActionRegistry :=
  calls.foldl (fun (answers, r) (action, module) =>
    (answers ++ [(r.register action module).1], (r.register action module).2)) ([], empty)

theorem ofCalls_concat (calls : List (String × String)) (call : String × String) :
    ofCalls (calls ++ [call])
      = ((ofCalls calls).1 ++ [((ofCalls calls).2.register call.1 call.2).1],
        ((ofCalls calls).2.register call.1 call.2).2) :=
  List.foldl_concat ..

/-- What a registry keeps of the calls that it was made by, and of their answers: the names that are
taken are those of the entries, no name stands twice, the entries are the calls that were answered
with yes, and an owner is found as if all calls were entries. -/
structure Records (calls : List (String × String)) (answers : List Bool) (r : ActionRegistry) :
    Prop where
  answered : answers.length = calls.length
  taken : ∀ action, action ∈ r.taken ↔ action ∈ r.entries.map (·.1)
  nodup : (r.entries.map (·.1)).Nodup
  entries : r.entries = ((calls.zip answers).filter (·.2)).map (·.1)
  moduleOf : ∀ action, r.moduleOf action = calls.lookup action
  size : r.size = answers.count true

theorem records_empty : Records [] [] empty where
  answered := rfl
  taken _ := Iff.rfl
  nodup := List.nodup_nil
  entries := rfl
  moduleOf _ := rfl
  size := rfl

namespace Records

variable (h : Records calls answers r) (action module : String)

include h

/-- A call adds an entry when its action has none, and otherwise it changes nothing. -/
theorem register_eq :
    r.register action module
      = if action ∈ r.entries.map (·.1) then (false, r)
        else (true, ⟨r.entries ++ [(action, module)], action :: r.taken⟩) := by
  unfold ActionRegistry.register
  by_cases hmem : action ∈ r.entries.map (·.1)
  · rw [if_pos hmem, if_pos (by simpa using (h.taken action).mpr hmem)]
  · rw [if_neg hmem, if_neg (by simpa using mt (h.taken action).mp hmem)]

/-- Behind the calls so far, a call for an action that has an entry makes no other owner. -/
theorem lookup_concat_of_mem (hmem : action ∈ r.entries.map (·.1)) (other : String) :
    (calls ++ [(action, module)]).lookup other = calls.lookup other := by
  rw [List.lookup_append]
  by_cases hother : other = action
  · obtain ⟨entry, hentry, hname⟩ := List.mem_map.mp hmem
    have hfound : calls.lookup other ≠ none := by
      rw [← h.moduleOf, ActionRegistry.moduleOf, ne_eq, List.lookup_eq_none_iff]
      exact fun hnone => by simpa [hother, hname] using hnone entry hentry
    obtain ⟨owner, howner⟩ := Option.ne_none_iff_exists'.mp hfound
    rw [howner]
    rfl
  · have hnone : [(action, module)].lookup other = none := by
      rw [List.lookup_cons, beq_eq_false_iff_ne.mpr hother]
      rfl
    rw [hnone, Option.or_none]

/-- **One call keeps what a registry keeps of its calls.** -/
theorem register :
    Records (calls ++ [(action, module)]) (answers ++ [(r.register action module).1])
      (r.register action module).2 := by
  have hzip (answer : Bool) : (calls ++ [(action, module)]).zip (answers ++ [answer])
      = calls.zip answers ++ [((action, module), answer)] := List.zip_append h.answered.symm
  have hanswered (answer : Bool) :
      (answers ++ [answer]).length = (calls ++ [(action, module)]).length := by
    rw [List.length_append, List.length_append, h.answered]
    rfl
  rw [h.register_eq]
  by_cases hmem : action ∈ r.entries.map (·.1)
  · rw [if_pos hmem]
    exact
      { answered := hanswered false
        taken := h.taken
        nodup := h.nodup
        entries := by
          rw [hzip, List.filter_append, List.map_append, ← h.entries]
          exact (List.append_nil _).symm
        moduleOf := fun other => by
          rw [h.lookup_concat_of_mem action module hmem]
          exact h.moduleOf other
        size := by
          rw [List.count_append, ← h.size]
          rfl }
  · rw [if_neg hmem]
    exact
      { answered := hanswered true
        taken := fun other => by
          rw [List.mem_cons, h.taken, List.map_append, List.mem_append, or_comm]
          exact or_congr_right List.mem_singleton.symm
        nodup := by
          rw [List.map_append, List.nodup_append_comm]
          exact List.nodup_cons.mpr ⟨hmem, h.nodup⟩
        entries := by
          rw [hzip, List.filter_append, List.map_append, ← h.entries]
          rfl
        moduleOf := fun other => by
          rw [List.lookup_append, ← h.moduleOf]
          exact List.lookup_append
        size := by
          rw [List.count_append, ← h.size]
          exact List.length_append }

end Records

/-- **Any number of calls keeps it.** -/
theorem records_ofCalls (calls : List (String × String)) :
    Records calls (ofCalls calls).1 (ofCalls calls).2 := by
  induction calls using List.reverseRecOn with
  | nil => exact records_empty
  | append_singleton calls call ih =>
    rw [ofCalls_concat]
    exact ih.register call.1 call.2

/-! ## Registries of modules -/

/-- The registry of modules is made by a call for each contributed action. -/
theorem ofContributions_eq_ofCalls (contributions : List (ModuleInstance × List String)) :
    ofContributions contributions = (ofCalls (contributed contributions)).2 := by
  rw [ofContributions_eq_foldl]
  induction contributed contributions using List.reverseRecOn with
  | nil => rfl
  | append_singleton calls call ih => rw [ofCalls_concat, List.foldl_concat, ih]

/-- **Modules behind others** add what they would register alone, less what is registered. -/
theorem entries_ofContributions_append (xs ys : List (ModuleInstance × List String)) :
    (ofContributions (xs ++ ys)).entries
      = (ofContributions xs).entries ++ (ofContributions ys).entries.filter fun entry =>
          entry.1 ∉ (ofContributions xs).entries.map (·.1) := by
  have htaken : ∀ action, action ∈ (ofContributions xs).taken ↔
      action ∈ (ofContributions xs).entries.map (·.1) ∨ action ∈ [] := by
    intro action
    rw [ofContributions_eq_ofCalls, (records_ofCalls _).taken]
    simp
  have happend : contributed (xs ++ ys) = contributed xs ++ contributed ys := List.flatMap_append
  rw [ofContributions_eq_foldl (xs ++ ys), happend, List.foldl_append,
    ← ofContributions_eq_foldl xs, entries_foldl_register, entries_ofContributions ys,
    firstOf_eq_filter htaken]

/-- **A registry records the first call for every action.** The entries for more modules are those
for the first modules, and behind them the entries for the others alone without the actions that are
there already. After any calls on the registry without any action, the taken names are the names of
the entries, no action stands twice, the entries are the calls that were answered with yes, the
owner of an action is the module of the first call for it, and the size is the number of answers
with yes; and the next call is answered with yes exactly when its action has no entry, and changes
nothing otherwise. A registry of modules is made by such calls. -/
theorem registers_first_calls :
    (∀ xs ys, (ofContributions (xs ++ ys)).entries
      = (ofContributions xs).entries ++ (ofContributions ys).entries.filter fun entry =>
          entry.1 ∉ (ofContributions xs).entries.map (·.1)) ∧
    (∀ contributions,
      ofContributions contributions = (ofCalls (contributed contributions)).2) ∧
    ∀ calls, Records calls (ofCalls calls).1 (ofCalls calls).2 ∧
      ∀ action module, (ofCalls calls).2.register action module
        = if action ∈ (ofCalls calls).2.entries.map (·.1) then (false, (ofCalls calls).2)
          else (true, ⟨(ofCalls calls).2.entries ++ [(action, module)],
            action :: (ofCalls calls).2.taken⟩) :=
  ⟨entries_ofContributions_append, ofContributions_eq_ofCalls,
    fun calls => ⟨records_ofCalls calls, (records_ofCalls calls).register_eq⟩⟩

end ActionRegistry

end TestActor
