import Mathlib.Data.List.Nodup
import Mathlib.Data.List.Pairwise
import TestActor.Proofs.ManifestGeneration

/-!
# Public names of forwarding methods

An action is forwarded under its own name, and an assertion under a conditional name as well. Own
names are never registered twice, but nothing keeps a conditional name away from the other names: a
module may have a method `canSeeText` beside `seeText`, and two methods may differ only in having
`dont` where the other has `cant`.

## Main statements

* `Step.nodup_names_iff`: when the names that actions give differ from each other.
* `Generator.nodup_publicNames_iff`: when no public name of a document is declared twice.
* `Generator.canSeeText_declared_twice`: a document that declares a name twice.
-/

namespace TestActor

open Text

namespace Step

/-! ## Conditional names -/

theorem beginsWith_iff {start name : String} :
    beginsWith start name = true ↔ ∃ rest, name.toList = start.toList ++ rest := by
  rw [beginsWith, List.isPrefixOf_iff_prefix]
  exact exists_congr fun rest => eq_comm

/-- The conditional name of a `see` assertion begins with `canSee`. -/
theorem toList_canName {name : String} {rest : List Char}
    (h : name.toList = "see".toList ++ rest) :
    (canName name).toList = "canSee".toList ++ rest := by
  rw [canName, String.toList_append, capitalized, h]
  exact congrArg ("can".toList ++ ·) (String.toList_ofList (l := 'S' :: ("ee".toList ++ rest)))

/-- The conditional name of a `dontSee` assertion begins with `cantSee`. -/
theorem toList_cantName {name : String} {rest : List Char}
    (h : name.toList = "dontSee".toList ++ rest) :
    (cantName name).toList
      = "cantSee".toList ++ replaceAll "dont".toList "cant".toList rest := by
  have hsplit : name.toList = "dont".toList ++ ('S' :: 'e' :: 'e' :: rest) := h
  rw [cantName, String.toList_ofList, hsplit, replaceAll_append _ (by decide),
    replaceAll_cons_of_not rfl, replaceAll_cons_of_not rfl, replaceAll_cons_of_not rfl]
  rfl

/-- The conditional name that a method gives, if any. -/
def conditionalName? (method : String) : Option String :=
  if beginsWith "see" method then some (canName method)
  else if beginsWith "dontSee" method then some (cantName method)
  else none

theorem not_beginsWith_see {method : String} (h : beginsWith "dontSee" method = true) :
    ¬ beginsWith "see" method = true := by
  intro hsee
  obtain ⟨r, hr⟩ := beginsWith_iff.mp h
  obtain ⟨s, hs⟩ := beginsWith_iff.mp hsee
  have hhead : 'd' = 's' := (List.cons.inj (hr.symm.trans hs)).1
  exact absurd hhead (by decide)

theorem conditionalName?_eq_some_iff {method name : String} :
    conditionalName? method = some name ↔
      (beginsWith "see" method = true ∧ name = canName method) ∨
        (beginsWith "dontSee" method = true ∧ name = cantName method) := by
  rw [conditionalName?]
  split
  · next hsee =>
    have hdont : ¬ beginsWith "dontSee" method = true := fun h => not_beginsWith_see h hsee
    simp [hsee, hdont, eq_comm]
  · next hsee =>
    split
    · next hdont => simp [hsee, hdont, eq_comm]
    · next hdont => simp [hsee, hdont]

/-- The names that a method gives are its conditional name and its own. -/
theorem map_name_ofMethod (method : String) :
    (ofMethod method).map (·.name) = (conditionalName? method).toList ++ [method] := by
  rw [ofMethod, conditionalName?]
  split
  · rfl
  · split
    · rfl
    · split <;> rfl

theorem mem_names_iff {method name : String} :
    name ∈ (ofMethod method).map (·.name) ↔
      conditionalName? method = some name ∨ name = method := by
  rw [map_name_ofMethod, List.mem_append, Option.mem_toList, List.mem_singleton]

/-- `see` and `dontSee` assertions have different conditional names. -/
theorem canName_ne_cantName {a b : String} (ha : beginsWith "see" a = true)
    (hb : beginsWith "dontSee" b = true) : canName a ≠ cantName b := by
  intro he
  obtain ⟨r, hr⟩ := beginsWith_iff.mp ha
  obtain ⟨s, hs⟩ := beginsWith_iff.mp hb
  have hlists := congrArg String.toList he
  rw [toList_canName hr, toList_cantName hs] at hlists
  -- `canSee` and `cantSee` differ in their fourth letters
  have hfourth := congrArg (·[3]?) hlists
  exact absurd (Option.some.inj hfourth) (by decide : 'S' ≠ 't')

/-- Different `see` assertions have different conditional names. -/
theorem eq_of_canName_eq {a b : String} (ha : beginsWith "see" a = true)
    (hb : beginsWith "see" b = true) (he : canName a = canName b) : a = b := by
  obtain ⟨r, hr⟩ := beginsWith_iff.mp ha
  obtain ⟨s, hs⟩ := beginsWith_iff.mp hb
  have hlists := congrArg String.toList he
  rw [toList_canName hr, toList_canName hs] at hlists
  rw [← String.toList_inj, hr, hs, List.append_cancel_left hlists]

/-- **Only `dontSee` assertions share a conditional name.** -/
theorem eq_or_cantName_eq {a b name : String} (ha : conditionalName? a = some name)
    (hb : conditionalName? b = some name) :
    a = b ∨ (beginsWith "dontSee" a = true ∧ beginsWith "dontSee" b = true ∧
      cantName a = cantName b) := by
  rcases conditionalName?_eq_some_iff.mp ha with ⟨hsa, rfl⟩ | ⟨hda, rfl⟩
  · rcases conditionalName?_eq_some_iff.mp hb with ⟨hsb, he⟩ | ⟨hdb, he⟩
    · exact Or.inl (eq_of_canName_eq hsa hsb he)
    · exact absurd he (canName_ne_cantName hsa hdb)
  · rcases conditionalName?_eq_some_iff.mp hb with ⟨hsb, he⟩ | ⟨hdb, he⟩
    · exact absurd he.symm (canName_ne_cantName hsb hda)
    · exact Or.inr ⟨hda, hdb, he⟩

/-! ## Names of many actions -/

/-- No conditional name of the actions is the name of another, own or conditional. -/
structure NamesApart (actions : List String) : Prop where
  can : ∀ a ∈ actions, beginsWith "see" a = true → canName a ∉ actions
  cant : ∀ a ∈ actions, beginsWith "dontSee" a = true → cantName a ∉ actions
  /-- Two `dontSee` actions do not become the same when `cant` is put for `dont`. -/
  cant_inj : ∀ a ∈ actions, ∀ b ∈ actions, beginsWith "dontSee" a = true →
    beginsWith "dontSee" b = true → cantName a = cantName b → a = b

theorem NamesApart.conditionalName?_not_mem {actions : List String} (h : NamesApart actions)
    {a name : String} (ha : a ∈ actions) (hname : conditionalName? a = some name) :
    name ∉ actions := by
  rcases conditionalName?_eq_some_iff.mp hname with ⟨hsee, rfl⟩ | ⟨hdont, rfl⟩
  · exact h.can a ha hsee
  · exact h.cant a ha hdont

/-- **The names of different actions differ when no conditional name meets another name.** -/
theorem nodup_names_iff {actions : List String} (hnodup : actions.Nodup) :
    ((actions.flatMap ofMethod).map (·.name)).Nodup ↔ NamesApart actions := by
  rw [List.map_flatMap, List.nodup_flatMap]
  constructor
  · rintro ⟨hone, htwo⟩
    have hapart : ∀ a ∈ actions, ∀ b ∈ actions, ∀ name, name ∈ (ofMethod a).map (·.name) →
        name ∈ (ofMethod b).map (·.name) → a = b := by
      intro a ha b hb name hna hnb
      by_contra hne
      have hsymm : Std.Symm (Function.onFun List.Disjoint fun a =>
          (ofMethod a).map (·.name)) := ⟨fun _ _ h _ hb ha => h ha hb⟩
      exact htwo.forall ha hb hne hna hnb
    have hnot : ∀ a ∈ actions, ∀ name, conditionalName? a = some name → name ∉ actions := by
      intro a ha name hname hmem
      have he : a = name := hapart a ha name hmem name (mem_names_iff.mpr (.inl hname))
        (mem_names_iff.mpr (.inr rfl))
      subst he
      have := hone a ha
      rw [map_name_ofMethod, hname] at this
      simp at this
    refine ⟨?_, ?_, ?_⟩
    · intro a ha hsee
      exact hnot a ha _ (conditionalName?_eq_some_iff.mpr (.inl ⟨hsee, rfl⟩))
    · intro a ha hdont
      exact hnot a ha _ (conditionalName?_eq_some_iff.mpr (.inr ⟨hdont, rfl⟩))
    · intro a ha b hb hda hdb he
      exact hapart a ha b hb (cantName a)
        (mem_names_iff.mpr (.inl (conditionalName?_eq_some_iff.mpr (.inr ⟨hda, rfl⟩))))
        (mem_names_iff.mpr (.inl (conditionalName?_eq_some_iff.mpr (.inr ⟨hdb, he⟩))))
  · intro h
    constructor
    · intro a ha
      rw [map_name_ofMethod]
      cases hname : conditionalName? a with
      | none => simp
      | some name =>
        have hne : name ≠ a := fun he => h.conditionalName?_not_mem ha hname (he ▸ ha)
        simpa using hne
    · refine hnodup.pairwise_of_forall_ne fun a ha b hb hne name hna hnb => ?_
      rcases mem_names_iff.mp hna with hna | rfl
      · rcases mem_names_iff.mp hnb with hnb | rfl
        · rcases eq_or_cantName_eq hna hnb with he | ⟨hda, hdb, he⟩
          · exact hne he
          · exact hne (h.cant_inj a ha b hb hda hdb he)
        · exact h.conditionalName?_not_mem ha hna hb
      · rcases mem_names_iff.mp hnb with hnb | rfl
        · exact h.conditionalName?_not_mem hb hnb ha
        · exact hne rfl

end Step

namespace Generator

variable {g : Generator} {d : Document}

/-! ## Names in a document -/

/-- The public names of the plan are those that the registered actions give. -/
theorem map_name_plan (hg : g.IsPrepared) (hd : g.produce = .ok d) :
    g.plan.map (·.2.name) = ((g.actions.entries.map (·.1)).flatMap Step.ofMethod).map (·.name) := by
  calc g.plan.map (·.2.name)
      = (g.plan.map (·.2)).map (·.name) := by rw [List.map_map]; rfl
    _ = g.steps.map (·.name) := by rw [map_snd_plan hg hd]
    _ = _ := by rw [steps, List.flatMap_map]

/-- **A document declares no public name twice exactly when the names of the registered actions are
apart.** Its methods are the plan, rendered in order, so each of their texts declares the step that
was planned, under the name of this step. The plan has the steps of the registered actions. -/
theorem nodup_publicNames_iff (hg : g.IsPrepared) (hd : g.produce = .ok d) :
    List.Forall₂ (fun p text => Forwarder.render p.1 p.2 = .ok text) g.plan d.methods ∧
    List.Forall₂ (fun p text => Forwarder.Declares p.1 p.2 text) g.plan d.methods ∧
    g.plan.map (·.2) = g.steps ∧
    ((g.plan.map (·.2.name)).Nodup ↔ Step.NamesApart (g.actions.entries.map (·.1))) := by
  refine ⟨render_plan_of_produce hg hd, declares_plan_of_produce hg hd, map_snd_plan hg hd, ?_⟩
  rw [map_name_plan hg hd]
  exact Step.nodup_names_iff hg.nodup

/-- Assertions in both forms beside an action leave all public names apart. -/
theorem nodup_publicNames_of_seeText :
    let manifest : Manifest := {
      modules := [{ name := "M", typeName := "T" }]
      types := .ofList [
        { name := "T"
          methods := [{ name := "seeText" }, { name := "dontSeeText" }, { name := "canClick" }] }] }
    ∃ g d, manifest.prepare ⟨"Acceptance", "", ["M"]⟩ = .ok g ∧ g.produce = .ok d ∧
      (g.plan.map (·.2.name)).Nodup := by
  intro manifest
  obtain ⟨g, hg, hactions⟩ : ∃ g, manifest.prepare ⟨"Acceptance", "", ["M"]⟩ = .ok g ∧
      g.actions.entries.map (·.1) = ["seeText", "dontSeeText", "canClick"] :=
    ⟨_, rfl, by decide +kernel⟩
  obtain ⟨d, hd⟩ := Manifest.exists_produce hg
  refine ⟨g, d, hg, hd, (nodup_publicNames_iff (.of_prepare hg) hd).2.2.2.mpr ?_⟩
  rw [hactions]
  exact ⟨by decide +kernel, by decide +kernel, by decide +kernel⟩

/-- A method `canSeeText` beside `seeText` is declared twice: as the conditional form of the one
and under its own name. The first and the last text have the same public name. -/
theorem canSeeText_declared_twice :
    let manifest : Manifest := {
      modules := [{ name := "M", typeName := "T" }]
      types := .ofList [
        { name := "T", methods := [{ name := "seeText" }, { name := "canSeeText" }] }] }
    ∃ g d, manifest.prepare ⟨"Acceptance", "", ["M"]⟩ = .ok g ∧ g.produce = .ok d ∧
      List.Forall₂ (fun p text => Forwarder.render p.1 p.2 = .ok text) g.plan d.methods ∧
      d.methods = [
        Forwarder.wording "*\n     * Conditional Assertion: Test won't be stopped on fail" "T"
          "seeText" "canSeeText" "" "ConditionalAssertion",
        Forwarder.wording "*" "T" "seeText" "seeText" "" "Assertion",
        Forwarder.wording "*" "T" "canSeeText" "canSeeText" "" "Action"] ∧
      g.plan.map (·.2.name) = ["canSeeText", "seeText", "canSeeText"] ∧
      ¬ (g.plan.map (·.2.name)).Nodup := by
  intro manifest
  obtain ⟨g, hg, hplan⟩ : ∃ g, manifest.prepare ⟨"Acceptance", "", ["M"]⟩ = .ok g ∧
      g.plan = [(⟨"T", "seeText", [], ""⟩, ⟨.conditionalAssertion, "canSeeText"⟩),
        (⟨"T", "seeText", [], ""⟩, ⟨.assertion, "seeText"⟩),
        (⟨"T", "canSeeText", [], ""⟩, ⟨.action, "canSeeText"⟩)] :=
    ⟨_, rfl, by decide +kernel⟩
  obtain ⟨d, hd⟩ := Manifest.exists_produce hg
  have hmethods : d.methods = g.planTexts :=
    congrArg Document.methods (eq_documentOf_plan (.of_prepare hg) hd)
  have hconditional : Forwarder.docText "" .conditionalAssertion
      = "*\n     * Conditional Assertion: Test won't be stopped on fail" := by decide +kernel
  have hplain : Forwarder.docText "" .assertion = "*" := by decide +kernel
  refine ⟨g, d, hg, hd, render_plan_of_produce (.of_prepare hg) hd, ?_, ?_, ?_⟩
  · rw [hmethods, planTexts, hplan, ← hconditional, ← hplain]
    simp only [List.map_cons, List.map_nil, List.cons.injEq, and_true]
    exact ⟨Forwarder.declares_text _ _, Forwarder.declares_text _ _, Forwarder.declares_text _ _⟩
  · rw [hplan]
    rfl
  · rw [hplan]
    decide

end Generator

end TestActor
