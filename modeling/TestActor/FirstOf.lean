/-!
# The first element of each key

Where several elements share a key, the first of them counts: the first module of a type is the
one that is imported, the nearest declaration of a method is the one that is seen.

## Main statements

* `nodup_map_firstOf`: no two of the elements that are kept share a key.
* `mem_firstOf`: what is kept is one of the elements, and its key was not met before.
-/

namespace TestActor

variable {α : Type}

/-- Keeps the elements whose key is not among `met` and not the key of an earlier element. -/
def firstOf (key : α → String) : List String → List α → List α
  | _, [] => []
  | met, x :: rest =>
    if met.contains (key x) then firstOf key met rest
    else x :: firstOf key (key x :: met) rest

/-- What is kept is one of the elements, and its key was not met before. -/
theorem mem_firstOf {key : α → String} {met : List String} {xs : List α} {x : α}
    (h : x ∈ firstOf key met xs) : x ∈ xs ∧ key x ∉ met := by
  induction xs generalizing met with
  | nil => simp [firstOf] at h
  | cons y rest ih =>
    rw [firstOf] at h
    split at h
    · next hy => exact ⟨List.mem_cons_of_mem _ (ih h).1, (ih h).2⟩
    · next hy =>
      rcases List.mem_cons.mp h with rfl | h
      · exact ⟨List.mem_cons_self, by simpa using hy⟩
      · have := ih h
        exact ⟨List.mem_cons_of_mem _ this.1, fun hm => this.2 (List.mem_cons_of_mem _ hm)⟩

/-- No two of the elements that are kept share a key. -/
theorem nodup_map_firstOf (key : α → String) (met : List String) (xs : List α) :
    ((firstOf key met xs).map key).Nodup := by
  induction xs generalizing met with
  | nil => simp [firstOf]
  | cons y rest ih =>
    rw [firstOf]
    split
    · exact ih met
    · rw [List.map_cons, List.nodup_cons]
      refine ⟨fun h => ?_, ih _⟩
      obtain ⟨z, hz, he⟩ := List.mem_map.mp h
      exact (mem_firstOf hz).2 (he ▸ List.mem_cons_self)

end TestActor
