import Mathlib.Data.List.Forall2

/-!
# Runs that stop at the first error

A list is run through a step that may fail. The run succeeds with one result for each element, or
it fails as the first element fails whose step does.

## Main statements

* `mapM_eq_ok_iff`: the results of a run that succeeds.
* `mapM_eq_error_iff`: the error of a run that fails.
* `mapM_map_eq_some`, `mapM_eq_some_iff`: what is read back one by one is read back in a run, and
  nothing else is.
-/

namespace TestActor

variable {α β ε : Type} {f : α → Except ε β}

/-- A step is either run with a result or ends everything. -/
theorem bind_eq_ok_iff {γ : Type} {x : Except ε α} {next : α → Except ε γ} {c : γ} :
    (x >>= next) = .ok c ↔ ∃ a, x = .ok a ∧ next a = .ok c := by
  cases x <;> simp [bind, Except.bind]

/-- What fails is the step or what comes after it. -/
theorem bind_eq_error_iff {γ : Type} {x : Except ε α} {next : α → Except ε γ} {e : ε} :
    (x >>= next) = .error e ↔ x = .error e ∨ ∃ a, x = .ok a ∧ next a = .error e := by
  cases x <;> simp [bind, Except.bind]

theorem mapError_eq_ok_iff {δ : Type} {x : Except ε α} {wrap : ε → δ} {a : α} :
    x.mapError wrap = .ok a ↔ x = .ok a := by
  cases x with
  | error e => exact iff_of_false (fun h => by cases h) (fun h => by cases h)
  | ok b => exact ⟨fun h => congrArg Except.ok (Except.ok.inj h), fun h => by rw [h]; rfl⟩

theorem mapError_eq_error_iff {δ : Type} {x : Except ε α} {wrap : ε → δ} {e : δ} :
    x.mapError wrap = .error e ↔ ∃ reason, x = .error reason ∧ wrap reason = e := by
  cases x with
  | error reason =>
    exact ⟨fun h => ⟨reason, rfl, Except.error.inj h⟩, fun ⟨_, h, he⟩ => by cases h; rw [← he]; rfl⟩
  | ok a => exact iff_of_false (fun h => by cases h) (fun ⟨_, h, _⟩ => by cases h)

theorem map_eq_ok_iff {γ : Type} {x : Except ε α} {g : α → γ} {c : γ} :
    g <$> x = .ok c ↔ ∃ a, x = .ok a ∧ g a = c := by
  cases x with
  | error e => exact iff_of_false (fun h => by cases h) (fun ⟨_, h, _⟩ => by cases h)
  | ok a => exact ⟨fun h => ⟨a, rfl, Except.ok.inj h⟩, fun ⟨_, h, hc⟩ => by cases h; rw [← hc]; rfl⟩

theorem map_eq_error_iff {γ : Type} {x : Except ε α} {g : α → γ} {e : ε} :
    g <$> x = .error e ↔ x = .error e := by
  cases x with
  | error e' => exact ⟨fun h => by cases h; rfl, fun h => by cases h; rfl⟩
  | ok a => exact iff_of_false (fun h => by cases h) (fun h => by cases h)

/-- **A run that succeeds has one result for each element.** -/
theorem mapM_eq_ok_iff {xs : List α} {ys : List β} :
    xs.mapM f = .ok ys ↔ List.Forall₂ (fun x y => f x = .ok y) xs ys := by
  induction xs generalizing ys with
  | nil =>
    rw [List.mapM_nil, List.forall₂_nil_left_iff]
    exact ⟨fun h => (Except.ok.inj h).symm, fun h => by rw [h]; rfl⟩
  | cons x rest ih =>
    rw [List.mapM_cons, bind_eq_ok_iff, List.forall₂_cons_left_iff]
    constructor
    · rintro ⟨y, hy, hrest⟩
      obtain ⟨zs, hzs, hout⟩ := bind_eq_ok_iff.mp hrest
      exact ⟨y, zs, hy, ih.mp hzs, (Except.ok.inj hout).symm⟩
    · rintro ⟨y, zs, hy, hzs, rfl⟩
      exact ⟨y, hy, bind_eq_ok_iff.mpr ⟨zs, ih.mpr hzs, rfl⟩⟩

/-- Steps that do the same with every element make the same run. -/
theorem mapM_congr {g : α → Except ε β} {xs : List α} (h : ∀ x ∈ xs, f x = g x) :
    xs.mapM f = xs.mapM g := by
  induction xs with
  | nil => rfl
  | cons x rest ih =>
    obtain ⟨hx, hrest⟩ := List.forall_mem_cons.mp h
    rw [List.mapM_cons, List.mapM_cons, hx, ih hrest]

theorem mapM_eq_ok_map {xs : List α} {result : α → β} (h : ∀ x ∈ xs, f x = .ok (result x)) :
    xs.mapM f = .ok (xs.map result) := by
  rw [mapM_eq_ok_iff, List.forall₂_map_right_iff, List.forall₂_same]
  exact h

/-- A run succeeds when every step does. -/
theorem exists_mapM_eq_ok_iff {xs : List α} :
    (∃ ys, xs.mapM f = .ok ys) ↔ ∀ x ∈ xs, ∃ y, f x = .ok y := by
  induction xs with
  | nil => exact ⟨fun _ => by simp, fun _ => ⟨[], rfl⟩⟩
  | cons x rest ih =>
    rw [List.forall_mem_cons, ← ih]
    constructor
    · rintro ⟨ys, hys⟩
      rw [List.mapM_cons] at hys
      obtain ⟨y, hy, hrest⟩ := bind_eq_ok_iff.mp hys
      obtain ⟨zs, hzs, -⟩ := bind_eq_ok_iff.mp hrest
      exact ⟨⟨y, hy⟩, zs, hzs⟩
    · rintro ⟨⟨y, hy⟩, zs, hzs⟩
      exact ⟨y :: zs, mapM_eq_ok_iff.mpr (.cons hy (mapM_eq_ok_iff.mp hzs))⟩

/-- **A run fails as the first element fails whose step does.** -/
theorem mapM_eq_error_iff {xs : List α} {e : ε} :
    xs.mapM f = .error e ↔
      ∃ before x after, xs = before ++ x :: after ∧ (∀ b ∈ before, ∃ y, f b = .ok y) ∧
        f x = .error e := by
  induction xs with
  | nil =>
    constructor
    · intro h
      cases h
    · rintro ⟨before, x, after, hxs, -, -⟩
      simp at hxs
  | cons x rest ih =>
    rw [List.mapM_cons, bind_eq_error_iff]
    constructor
    · rintro (hx | ⟨y, hy, hrest⟩)
      · exact ⟨[], x, rest, rfl, by simp, hx⟩
      · have hr : rest.mapM f = .error e := by
          rcases bind_eq_error_iff.mp hrest with h | ⟨zs, -, h⟩
          · exact h
          · cases h
        obtain ⟨before, z, after, hsplit, hbefore, hz⟩ := ih.mp hr
        refine ⟨x :: before, z, after, by rw [hsplit]; rfl, ?_, hz⟩
        exact List.forall_mem_cons.mpr ⟨⟨y, hy⟩, hbefore⟩
    · rintro ⟨before, z, after, hsplit, hbefore, hz⟩
      cases before with
      | nil =>
        obtain ⟨rfl, -⟩ := List.cons.inj hsplit
        exact Or.inl hz
      | cons b before =>
        obtain ⟨rfl, htail⟩ := List.cons.inj hsplit
        obtain ⟨⟨y, hy⟩, hrest⟩ := List.forall_mem_cons.mp hbefore
        have hr : rest.mapM f = .error e := ih.mpr ⟨before, z, after, htail, hrest, hz⟩
        exact Or.inr ⟨y, hy, bind_eq_error_iff.mpr (Or.inl hr)⟩

/-- **What is read back one by one is read back in a run.** -/
theorem mapM_map_eq_some {print : α → β} {read : β → Option α} {xs : List α}
    (h : ∀ x ∈ xs, read (print x) = some x) : (xs.map print).mapM read = some xs := by
  induction xs with
  | nil => rfl
  | cons x rest ih =>
    obtain ⟨hx, hrest⟩ := List.forall_mem_cons.mp h
    rw [List.map_cons, List.mapM_cons, hx, ih hrest]
    rfl

/-- What a run of a reader gives is read from one of the texts. -/
theorem exists_of_mem_mapM {read : β → Option α} {texts : List β} {xs : List α} {x : α}
    (h : texts.mapM read = some xs) (hx : x ∈ xs) : ∃ text ∈ texts, read text = some x := by
  induction texts generalizing xs with
  | nil =>
    obtain rfl := Option.some.inj h
    cases hx
  | cons text rest ih =>
    rw [List.mapM_cons] at h
    obtain ⟨first, hfirst, hrest⟩ := Option.bind_eq_some_iff.mp h
    obtain ⟨others, hothers, hall⟩ := Option.bind_eq_some_iff.mp hrest
    obtain rfl := Option.some.inj hall
    rcases List.mem_cons.mp hx with rfl | hx
    · exact ⟨text, List.mem_cons_self, hfirst⟩
    · obtain ⟨other, hother, hread⟩ := ih hothers hx
      exact ⟨other, List.mem_cons_of_mem text hother, hread⟩

/-- **A run of a reader that is exact is exact**: it reads the things that are as they should be, each
from its own text. -/
theorem mapM_eq_some_iff {Good : α → Prop} {print : α → β} {read : β → Option α}
    (h : ∀ x text, read text = some x ↔ Good x ∧ text = print x) {texts : List β} {xs : List α} :
    texts.mapM read = some xs ↔ (∀ x ∈ xs, Good x) ∧ texts = xs.map print := by
  induction texts generalizing xs with
  | nil =>
    rw [List.mapM_nil]
    cases xs with
    | nil => simp
    | cons => simp
  | cons text rest ih =>
    rw [List.mapM_cons, Option.bind_eq_bind, Option.bind_eq_some_iff]
    constructor
    · rintro ⟨x, hx, hrest⟩
      obtain ⟨xs', hxs', hall⟩ := Option.bind_eq_some_iff.mp hrest
      obtain rfl := Option.some.inj hall
      obtain ⟨hgood, rfl⟩ := (h x text).mp hx
      obtain ⟨hall, rfl⟩ := ih.mp hxs'
      exact ⟨List.forall_mem_cons.mpr ⟨hgood, hall⟩, rfl⟩
    · rintro ⟨hall, htexts⟩
      obtain ⟨x, xs', rfl, rfl, hrest⟩ := List.map_eq_cons_iff.mp htexts.symm
      obtain ⟨hgood, hxs'⟩ := List.forall_mem_cons.mp hall
      refine ⟨x, (h x _).mpr ⟨hgood, rfl⟩, ?_⟩
      rw [Option.bind_eq_bind, ih.mpr ⟨hxs', hrest.symm⟩]
      rfl

end TestActor
