import Mathlib.Data.List.Basic
import TestActor.FirstOf

/-!
# First occurrences

What `firstOf` keeps, said without the walk: of every key that was not met before it keeps the
element that a search finds, in the order in which the keys occur. More elements behind a list
change nothing of what is kept of the list.

## Main statements

* `mem_firstOf_iff`: what is kept is what a search for its key finds.
* `mem_map_firstOf_iff`: the keys that are kept.
* `pairwise_idxOf_firstOf`: it is kept in the order in which keys occur first.
* `pairwise_findIdx_firstOf`: the same among the elements of a list that satisfy a test.
* `isPrefix_firstOf`: what is kept of a list comes before what is kept of the rest.
-/

namespace TestActor

variable {α : Type} {key : α → String} {met : List String} {xs ys : List α} {x : α}

/-- **What is kept is what a search for its key finds.** -/
theorem mem_firstOf_iff :
    x ∈ firstOf key met xs ↔ key x ∉ met ∧ xs.find? (fun y => key y == key x) = some x := by
  induction xs generalizing met with
  | nil => simp [firstOf]
  | cons y rest ih =>
    rw [firstOf]
    by_cases hy : met.contains (key y) = true
    · -- `y` is passed over, and no search for a new key stops at it
      rw [if_pos hy, ih]
      refine and_congr_right fun hx => ?_
      have hne : key y ≠ key x := by
        intro he
        exact hx (he ▸ by simpa using hy)
      rw [List.find?_cons_of_neg (by simpa using hne)]
    · rw [if_neg hy, List.mem_cons, ih]
      by_cases he : key y = key x
      · rw [List.find?_cons_of_pos (by simpa using he)]
        have hx : key x ∉ met := he ▸ by simpa using hy
        simp [hx, he, eq_comm]
      · rw [List.find?_cons_of_neg (by simpa using he)]
        have hxy : x ≠ y := fun h => he (h ▸ rfl)
        have hkey : key x ≠ key y := Ne.symm he
        simp [hxy, hkey]

/-- An element is kept of every key that occurs and was not met before. -/
theorem mem_map_firstOf_iff {k : String} :
    k ∈ (firstOf key met xs).map key ↔ k ∉ met ∧ k ∈ xs.map key := by
  constructor
  · intro h
    obtain ⟨x, hx, rfl⟩ := List.mem_map.mp h
    exact ⟨(mem_firstOf hx).2, List.mem_map_of_mem (mem_firstOf hx).1⟩
  · rintro ⟨hmet, h⟩
    obtain ⟨y, hy, rfl⟩ := List.mem_map.mp h
    obtain ⟨x, hx⟩ : ∃ x, xs.find? (fun z => key z == key y) = some x :=
      Option.isSome_iff_exists.mp (List.find?_isSome.mpr ⟨y, hy, by simp⟩)
    have hkey : key x = key y := by simpa using List.find?_some hx
    rw [← hkey] at hx hmet ⊢
    exact List.mem_map_of_mem (mem_firstOf_iff.mpr ⟨hmet, hx⟩)

/-- **What is kept stands in the order in which the keys occur first.** -/
theorem pairwise_idxOf_firstOf :
    (firstOf key met xs).Pairwise fun a b =>
      (xs.map key).idxOf (key a) < (xs.map key).idxOf (key b) := by
  induction xs generalizing met with
  | nil => simp [firstOf]
  | cons y rest ih =>
    -- behind `y` every other key stands one place further than in the rest
    have hrest : ∀ {met : List String}, key y ∈ met →
        (firstOf key met rest).Pairwise fun a b =>
          ((y :: rest).map key).idxOf (key a) < ((y :: rest).map key).idxOf (key b) := by
      intro met hmet
      refine ih.imp_of_mem fun {a b} ha hb hlt => ?_
      have hya : key y ≠ key a := fun he => (mem_firstOf ha).2 (he ▸ hmet)
      have hyb : key y ≠ key b := fun he => (mem_firstOf hb).2 (he ▸ hmet)
      rw [List.map_cons, List.idxOf_cons_ne _ hya, List.idxOf_cons_ne _ hyb]
      exact Nat.succ_lt_succ hlt
    rw [firstOf]
    by_cases hy : met.contains (key y) = true
    · rw [if_pos hy]
      exact hrest (by simpa using hy)
    · rw [if_neg hy]
      refine List.pairwise_cons.mpr ⟨fun b hb => ?_, hrest List.mem_cons_self⟩
      have hyb : key y ≠ key b := fun he => (mem_firstOf hb).2 (he ▸ List.mem_cons_self)
      rw [List.map_cons, List.idxOf_cons_self, List.idxOf_cons_ne _ hyb]
      exact Nat.succ_pos _

/-- **What is kept of the elements that satisfy a test** stands in the order in which their keys
occur first among these elements. -/
theorem pairwise_findIdx_firstOf {p : α → Bool} :
    (firstOf key met (xs.filter p)).Pairwise fun a b =>
      xs.findIdx (fun x => key x == key a && p x)
        < xs.findIdx (fun x => key x == key b && p x) := by
  induction xs generalizing met with
  | nil => simp [firstOf]
  | cons y rest ih =>
    -- behind `y`, which counts for a key that was met or not at all, everything stands one further
    have hrest : ∀ {met : List String}, (p y = true → key y ∈ met) →
        (firstOf key met (rest.filter p)).Pairwise fun a b =>
          (y :: rest).findIdx (fun x => key x == key a && p x)
            < (y :: rest).findIdx (fun x => key x == key b && p x) := by
      intro met hmet
      have hlater : ∀ x ∈ firstOf key met (rest.filter p), (key y == key x && p y) = false := by
        intro x hx
        by_cases hy : p y = true
        · have hne : key y ≠ key x := fun he => (mem_firstOf hx).2 (he ▸ hmet hy)
          simp [hne]
        · simp [hy]
      refine ih.imp_of_mem fun {a b} ha hb hlt => ?_
      rw [List.findIdx_cons, List.findIdx_cons, hlater a ha, hlater b hb]
      exact Nat.succ_lt_succ hlt
    by_cases hy : p y = true
    · rw [List.filter_cons_of_pos hy, firstOf]
      split
      · next hmet => exact hrest fun _ => by simpa using hmet
      · refine List.pairwise_cons.mpr ⟨fun b hb => ?_, hrest fun _ => List.mem_cons_self⟩
        have hyb : (key y == key b) = false :=
          beq_eq_false_iff_ne.mpr fun he => (mem_firstOf hb).2 (he ▸ List.mem_cons_self)
        simp [List.findIdx_cons, hy, hyb]
    · rw [List.filter_cons_of_neg hy]
      exact hrest fun h => absurd h hy

/-- **More elements behind a list change nothing of what is kept of the list.** -/
theorem isPrefix_firstOf (key : α → String) (met : List String) (xs ys : List α) :
    firstOf key met xs <+: firstOf key met (xs ++ ys) := by
  induction xs generalizing met with
  | nil => exact List.nil_prefix
  | cons y rest ih =>
    rw [List.cons_append, firstOf, firstOf]
    split
    · exact ih met
    · exact List.cons_prefix_cons.mpr ⟨rfl, ih _⟩

end TestActor
