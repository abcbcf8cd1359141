import TestActor.Proofs.PublicNames
import TestActor.Proofs.TakenOut

/-!
# Conditional names

The last step that a method gives has the name of the method, and the first letters of the name say
of which kind it is. An assertion has one more step, under a conditional name: `canSee` for `see`,
and `cant` in the place of every `dont` otherwise.

A conditional name begins with `c`, so it is no assertion and no condition again, and differs from
the name that it comes from. Neither of `dont` and `cant` has the first letter of the other. So no
`dont` comes together where `cant` is put in, and no `cant` but those; and what was replaced can be
put back, unless there was a `cant` before.

## Main definitions

* `Step.PlainStep`: the last step of a method and what stands before it.
* `Step.IsConditional`: the conditional names of a method.
* `Step.IsCantName`: what the conditional name of a `dontSee` assertion is like.

## Main statements

* `Text.not_infix_replaceAll`, `Text.replaceAll_replaceAll`: what replacing leaves, and how it is
  undone.
* `Step.exists_plainStep`: the steps of a method.
* `Step.isCantName_cantName`: the conditional name of a `dontSee` assertion.
* `Step.conditional_names`: the steps of a method and its conditional name.
-/

namespace TestActor

namespace Text

variable {old new s u v w p : List Char} {a b : Char}

/-! ## Replacing there and back -/

/-- A piece does not begin among characters that are not its first one. -/
theorem infix_of_infix_append (ha : a ∉ p) (h : a :: u <:+: p ++ s) : a :: u <:+: s := by
  induction p with
  | nil => exact h
  | cons c p ih =>
    rw [List.mem_cons, not_or] at ha
    rcases List.infix_cons_iff.mp h with hfront | hrest
    · exact absurd (List.cons_prefix_cons.mp hfront).1 ha.1
    · exact ih ha.2 hrest

/-- A piece without the first character of what is put in stands at the front of a text if it does
so after the replacement. -/
theorem prefix_of_prefix_replaceAll (hold : old ≠ []) (hb : b ∉ w)
    (h : w <+: replaceAll old (b :: v) s) : w <+: s := by
  induction s using occurrence_induction hold generalizing w with
  | nil => simpa [replaceAll] using h
  | occurrence rest ih =>
    rw [replaceAll_append _ hold] at h
    cases w with
    | nil => exact List.nil_prefix
    | cons d w => exact absurd (List.cons_prefix_cons.mp h).1 fun he => hb (he ▸ List.mem_cons_self)
  | other c rest hfront ih =>
    rw [replaceAll_cons_of_not_isPrefix hfront] at h
    cases w with
    | nil => exact List.nil_prefix
    | cons d w =>
      obtain ⟨rfl, hw⟩ := List.cons_prefix_cons.mp h
      exact List.cons_prefix_cons.mpr ⟨rfl, ih (fun hmem => hb (List.mem_cons_of_mem _ hmem)) hw⟩

/-- **What is replaced is gone**, if neither piece has the first character of the other. -/
theorem not_infix_replaceAll (ha : a ∉ b :: v) (hb : b ∉ a :: u) (s : List Char) :
    ¬ a :: u <:+: replaceAll (a :: u) (b :: v) s := by
  have hold : a :: u ≠ [] := List.cons_ne_nil a u
  induction s using occurrence_induction hold with
  | nil => simp [replaceAll]
  | occurrence rest ih =>
    rw [replaceAll_append _ hold]
    exact fun h => ih (infix_of_infix_append ha h)
  | other c rest hfront ih =>
    rw [replaceAll_cons_of_not_isPrefix hfront]
    intro h
    rcases List.infix_cons_iff.mp h with hprefix | hinfix
    · -- what stands behind `c` stood there before
      obtain ⟨rfl, hu⟩ := List.cons_prefix_cons.mp hprefix
      have hrest :=
        prefix_of_prefix_replaceAll hold (fun hmem => hb (List.mem_cons_of_mem _ hmem)) hu
      exact hfront (List.cons_prefix_cons.mpr ⟨rfl, hrest⟩)
    · exact ih hinfix

/-- **What was replaced is put back**, if the text had none of what is put in. -/
theorem replaceAll_replaceAll (hold : old ≠ []) (hb : b ∉ v) (h : ¬ b :: v <:+: s) :
    replaceAll (b :: v) old (replaceAll old (b :: v) s) = s := by
  induction s using occurrence_induction hold with
  | nil => simp [replaceAll]
  | occurrence rest ih =>
    have hrest : ¬ b :: v <:+: rest := fun hi => h (hi.trans (List.suffix_append old rest).isInfix)
    rw [replaceAll_append _ hold, replaceAll_append _ (List.cons_ne_nil b v), ih hrest]
  | other c rest hfront ih =>
    rw [List.infix_cons_iff, not_or] at h
    have hnot : ¬ b :: v <+: c :: replaceAll old (b :: v) rest := by
      intro hprefix
      obtain ⟨rfl, hv⟩ := List.cons_prefix_cons.mp hprefix
      exact h.1 (List.cons_prefix_cons.mpr ⟨rfl, prefix_of_prefix_replaceAll hold hb hv⟩)
    rw [replaceAll_cons_of_not_isPrefix hfront, replaceAll_cons_of_not_isPrefix hnot, ih h.2]

theorem length_replaceAll (hold : old ≠ []) (hlength : old.length = new.length) (s : List Char) :
    (replaceAll old new s).length = s.length := by
  induction s using occurrence_induction hold with
  | nil => simp [replaceAll]
  | occurrence rest ih =>
    rw [replaceAll_append _ hold, List.length_append, List.length_append, ih, hlength]
  | other c rest hfront ih =>
    rw [replaceAll_cons_of_not_isPrefix hfront, List.length_cons, List.length_cons, ih]

end Text

namespace Step

open Text

variable {method other name start : String} {c : Char}

/-! ## First letters -/

/-- The name begins with `start`. -/
def Begins (start name : String) : Prop :=
  start.toList <+: name.toList

/-- The method is an assertion. -/
def IsAssertion (method : String) : Prop :=
  Begins "see" method ∨ Begins "dontSee" method

theorem beginsWith_iff_begins : beginsWith start name = true ↔ Begins start name := by
  rw [beginsWith, List.isPrefixOf_iff_prefix, Begins]

theorem Begins.head?_eq (h : Begins start name) (hc : start.toList.head? = some c) :
    name.toList.head? = some c := by
  obtain ⟨rest, hrest⟩ := h
  rw [← hrest, List.head?_append, hc]
  rfl

/-- Names with different first letters begin differently. -/
theorem not_begins_of_head? (hname : name.toList.head? = some c)
    (hstart : start.toList.head? ≠ some c) (hne : start.toList ≠ []) : ¬ Begins start name := by
  intro h
  obtain ⟨d, hd⟩ := Option.isSome_iff_exists.mp (List.isSome_head?.mpr hne)
  exact hstart (hd.trans ((h.head?_eq hd).symm.trans hname))

/-! ## The steps of a method -/

/-- The plain step of a method, which is the last one, and the steps before it. -/
structure PlainStep (method : String) (before : List Step) (plain : Step) : Prop where
  steps : ofMethod method = before ++ [plain]
  name : plain.name = method
  assertion : plain.kind = .assertion ↔ IsAssertion method
  condition : plain.kind = .condition ↔ Begins "am" method
  action : plain.kind = .action ↔ ¬ IsAssertion method ∧ ¬ Begins "am" method
  conditional : IsAssertion method → ∃ name, before = [⟨.conditionalAssertion, name⟩]
  alone : ¬ IsAssertion method → before = []

/-- **The last step of a method has the name of the method**, and only an assertion has one more. -/
theorem exists_plainStep (method : String) : ∃ before plain, PlainStep method before plain := by
  by_cases hassertion : IsAssertion method
  · -- an assertion begins with `s` or `d`, so it is no condition
    have ham : ¬ Begins "am" method := by
      rcases hassertion with h | h
      · exact not_begins_of_head? (h.head?_eq rfl) (by decide) (by decide)
      · exact not_begins_of_head? (h.head?_eq rfl) (by decide) (by decide)
    have hsteps : ∃ name, ofMethod method
        = [⟨.conditionalAssertion, name⟩] ++ [⟨.assertion, method⟩] := by
      unfold ofMethod
      split
      · exact ⟨_, rfl⟩
      · next hsee =>
        have hdont := hassertion.resolve_left (mt beginsWith_iff_begins.mpr hsee)
        exact ⟨_, if_pos (beginsWith_iff_begins.mpr hdont)⟩
    obtain ⟨name, hname⟩ := hsteps
    exact ⟨_, _, hname, rfl, by simp [hassertion], by simp [ham], by simp [hassertion],
      fun _ => ⟨name, rfl⟩, fun h => absurd hassertion h⟩
  · have hsteps : ofMethod method = if beginsWith "am" method then [⟨.condition, method⟩]
        else [⟨.action, method⟩] := by
      have hsee : ¬ beginsWith "see" method = true := fun h =>
        hassertion (.inl (beginsWith_iff_begins.mp h))
      have hdont : ¬ beginsWith "dontSee" method = true := fun h =>
        hassertion (.inr (beginsWith_iff_begins.mp h))
      rw [ofMethod, if_neg hsee, if_neg hdont]
    by_cases ham : Begins "am" method
    · rw [if_pos (beginsWith_iff_begins.mpr ham)] at hsteps
      exact ⟨[], ⟨.condition, method⟩, hsteps, rfl, by simp [hassertion], by simp [ham],
        by simp [ham], fun h => absurd h hassertion, fun _ => rfl⟩
    · rw [if_neg (mt beginsWith_iff_begins.mp ham)] at hsteps
      exact ⟨[], ⟨.action, method⟩, hsteps, rfl, by simp [hassertion], by simp [ham],
        by simp [hassertion, ham], fun h => absurd h hassertion, fun _ => rfl⟩

/-! ## The conditional name -/

/-- A step of the method is a conditional assertion of that name. -/
def IsConditional (method name : String) : Prop :=
  ⟨.conditionalAssertion, name⟩ ∈ ofMethod method

theorem isConditional_iff :
    IsConditional method name ↔
      (Begins "see" method ∧ name = canName method) ∨
        (Begins "dontSee" method ∧ name = cantName method) := by
  rw [← beginsWith_iff_begins, ← beginsWith_iff_begins, ← conditionalName?_eq_some_iff,
    IsConditional, ofMethod, conditionalName?]
  split
  · simp [eq_comm]
  · split
    · simp [eq_comm]
    · split <;> simp

/-- What the conditional name of a `dontSee` assertion is like. -/
structure IsCantName (method name : String) : Prop where
  begins : Begins "cantSee" name
  length : name.length = method.length
  without_dont : ¬ "dont".toList <:+: name.toList
  /-- Putting `dont` in the place of every `cant` gives the method again. -/
  restored : ¬ "cant".toList <:+: method.toList →
    replaceAll "cant".toList "dont".toList name.toList = method.toList

theorem toList_cantName_eq (method : String) :
    (cantName method).toList
      = replaceAll ['d', 'o', 'n', 't'] ['c', 'a', 'n', 't'] method.toList :=
  String.toList_ofList

/-- **The conditional name of a `dontSee` assertion.** -/
theorem isCantName_cantName (h : Begins "dontSee" method) :
    IsCantName method (cantName method) where
  begins := by
    obtain ⟨rest, hrest⟩ := h
    exact ⟨_, (toList_cantName hrest.symm).symm⟩
  length := by
    rw [← String.length_toList, ← String.length_toList, toList_cantName_eq]
    exact length_replaceAll (by decide) (by decide) _
  without_dont := by
    rw [toList_cantName_eq]
    exact not_infix_replaceAll (by decide) (by decide) _
  restored hcant := by
    rw [toList_cantName_eq]
    exact replaceAll_replaceAll (by decide) (by decide) hcant

/-- **The conditional name of a `see` assertion** is the name behind `can` with a capital. -/
theorem toList_canName_of_begins (h : Begins "see" method) :
    (canName method).toList = "canS".toList ++ method.toList.tail := by
  obtain ⟨rest, hrest⟩ := h
  rw [toList_canName hrest.symm, ← hrest]
  rfl

/-- A method has one conditional name, by its family. -/
theorem IsConditional.eq_canName (h : IsConditional method name) (hsee : Begins "see" method) :
    name = canName method := by
  rcases isConditional_iff.mp h with ⟨-, hname⟩ | ⟨hdont, -⟩
  · exact hname
  · exact absurd (beginsWith_iff_begins.mpr hsee)
      (not_beginsWith_see (beginsWith_iff_begins.mpr hdont))

theorem IsConditional.eq_cantName (h : IsConditional method name)
    (hdont : Begins "dontSee" method) : name = cantName method := by
  rcases isConditional_iff.mp h with ⟨hsee, -⟩ | ⟨-, hname⟩
  · exact absurd (beginsWith_iff_begins.mpr hsee)
      (not_beginsWith_see (beginsWith_iff_begins.mpr hdont))
  · exact hname

theorem IsConditional.isAssertion (h : IsConditional method name) : IsAssertion method :=
  (isConditional_iff.mp h).imp And.left And.left

/-- A conditional name begins with `c`. -/
theorem IsConditional.head?_eq (h : IsConditional method name) : name.toList.head? = some 'c' := by
  rcases isConditional_iff.mp h with ⟨hsee, rfl⟩ | ⟨hdont, rfl⟩
  · rw [toList_canName_of_begins hsee]
    rfl
  · exact (isCantName_cantName hdont).begins.head?_eq rfl

/-- **A conditional name is no assertion and no condition again**, and differs from the name that it
comes from. -/
theorem IsConditional.apart (h : IsConditional method name) :
    name ≠ method ∧ ¬ IsAssertion name ∧ ¬ Begins "am" name := by
  have hassertion : ¬ IsAssertion name := by
    rintro (hsee | hdont)
    · exact not_begins_of_head? h.head?_eq (by decide) (by decide) hsee
    · exact not_begins_of_head? h.head?_eq (by decide) (by decide) hdont
  refine ⟨fun he => hassertion (he ▸ h.isAssertion), hassertion, ?_⟩
  exact not_begins_of_head? h.head?_eq (by decide) (by decide)

/-- **The steps of a method and its conditional name.** The last step has the name of the method
and is an assertion, a condition or an action by the first letters of the name; an assertion has one
more step before it, which is conditional, and everything else has none. The conditional name of a
`see` assertion is `canS` with the rest of the name, and different such assertions have different
ones. The conditional name of a `dontSee` assertion begins with `cantSee`, is as long as the name
and has no `dont` in it; it gives the name again when it is replaced back, if the name has no `cant`
in it. A conditional name is never the name that it comes from, nor a conditional name of the other
family, nor itself an assertion or a condition. -/
theorem conditional_names (method : String) :
    (∃ before plain, PlainStep method before plain) ∧
    ∀ name, IsConditional method name →
      (Begins "see" method → name.toList = "canS".toList ++ method.toList.tail ∧
        ∀ other, Begins "see" other → IsConditional other name → other = method) ∧
      (Begins "dontSee" method → IsCantName method name ∧
        ∀ other, Begins "see" other → ¬ IsConditional other name) ∧
      name ≠ method ∧ ¬ IsAssertion name ∧ ¬ Begins "am" name := by
  refine ⟨exists_plainStep method, fun name h => ⟨fun hsee => ⟨?_, ?_⟩, fun hdont => ⟨?_, ?_⟩,
    h.apart⟩⟩
  · rw [h.eq_canName hsee]
    exact toList_canName_of_begins hsee
  · intro other hother hname
    refine eq_of_canName_eq (beginsWith_iff_begins.mpr hother) (beginsWith_iff_begins.mpr hsee) ?_
    rw [← hname.eq_canName hother, ← h.eq_canName hsee]
  · rw [h.eq_cantName hdont]
    exact isCantName_cantName hdont
  · intro other hother hname
    refine canName_ne_cantName (beginsWith_iff_begins.mpr hother)
      (beginsWith_iff_begins.mpr hdont) ?_
    rw [← hname.eq_canName hother, ← h.eq_cantName hdont]

/-- Every `dont` of a name becomes `cant`, and can be put back. The name `seed` is an assertion by
its first letters. -/
theorem conditional_names_of_seed :
    IsConditional "dontSeeLinkdont" "cantSeeLinkcant" ∧ Begins "dontSee" "dontSeeLinkdont" ∧
    ¬ "dont".toList <:+: "cantSeeLinkcant".toList ∧
    replaceAll "cant".toList "dont".toList "cantSeeLinkcant".toList = "dontSeeLinkdont".toList ∧
    IsConditional "seed" "canSeed" ∧ Begins "see" "seed" ∧
    ∀ other, Begins "see" other → IsConditional other "canSeed" → other = "seed" := by
  have hdont : IsConditional "dontSeeLinkdont" "cantSeeLinkcant" := by
    unfold IsConditional
    decide +kernel
  have hsee : IsConditional "seed" "canSeed" := by
    unfold IsConditional
    decide +kernel
  have hbegins : Begins "dontSee" "dontSeeLinkdont" := ⟨"Linkdont".toList, by decide⟩
  have hseed : Begins "see" "seed" := ⟨['d'], by decide⟩
  obtain ⟨-, hcant, -⟩ := (conditional_names "dontSeeLinkdont").2 _ hdont
  obtain ⟨hcan, -, -⟩ := (conditional_names "seed").2 _ hsee
  exact ⟨hdont, hbegins, (hcant hbegins).1.without_dont, (hcant hbegins).1.restored (by decide),
    hsee, hseed, (hcan hseed).2⟩

end Step

end TestActor
