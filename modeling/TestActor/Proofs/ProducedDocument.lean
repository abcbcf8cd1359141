import TestActor.Proofs.Production

/-!
# The result of a production

A production goes through the registered actions with a set of the names that were emitted, looks
up the module of every owner, and asks what is found behind the action. Its result can be said
without the loop: the first action that is not found ends everything, and otherwise there is a
document whose methods are the steps of all actions in order. For a generator that was prepared, the
owner is always the name of a module and no name was emitted before, so nothing else can happen.

## Main definition

* `Generator.Produces`: the result of a production.

## Main statements

* `Generator.produce_eq_iff`: a production has this result.
* `Generator.produces_plan`: the same, and what cannot happen on the way.
-/

namespace TestActor.Generator

variable {g : Generator} {action owner : String}

/-- The result of a production. -/
inductive Produces (g : Generator) : Except GenerateError Document → Prop
  /-- An action is not found from the type of the first module with the owner's name, and every
  action before it is. -/
  | missing {before after : List (String × String)} {action owner : String}
      {module : ModuleInstance}
      (split : g.actions.entries = before ++ (action, owner) :: after)
      (resolved : ∀ entry ∈ before, (g.descriptor? entry.1 entry.2).isSome)
      (first : g.modules.find? (·.name == owner) = some module)
      (unresolved : Descriptor.resolve g.types module.typeName action = none) :
      Produces g (.error (.invariant module.name module.typeName action))
  /-- Every action is found. -/
  | document (resolved : ∀ entry ∈ g.actions.entries, (g.descriptor? entry.1 entry.2).isSome) :
      Produces g (.ok (g.documentOf g.planTexts))

/-! ## Owners and names -/

/-- Every owner is the name of a module. -/
theorem IsPrepared.exists_module? (hg : g.IsPrepared)
    (h : (action, owner) ∈ g.actions.entries) : ∃ module, g.module? owner = some module := by
  obtain ⟨settings, source, types, prepared, version, hprepare, rfl⟩ := hg
  obtain ⟨contributed, -, rfl⟩ := prepare_eq_ok_iff.mp hprepare
  obtain ⟨module, actions, hmem, hname, -⟩ := ActionRegistry.exists_contribution h
  rw [← Option.isSome_iff_exists, module?, List.find?_isSome]
  exact ⟨module, List.mem_map_of_mem (f := (·.1)) hmem, by simpa using hname⟩

/-- No action was emitted when its turn comes. -/
theorem IsPrepared.not_mem_before (hg : g.IsPrepared) {before after : List (String × String)}
    (h : g.actions.entries = before ++ (action, owner) :: after) : action ∉ before.map (·.1) := by
  have hnodup := hg.nodup
  rw [h, List.map_append, List.map_cons, List.nodup_append] at hnodup
  intro hmem
  exact hnodup.2.2 action hmem action List.mem_cons_self rfl

/-! ## The result -/

/-- An action of a module that is there fails when it is not found from the type of the module. -/
theorem forwardersOf_eq_error_iff {module : ModuleInstance} {e : GenerateError}
    (hmodule : g.module? owner = some module) :
    g.forwardersOf action owner = .error e ↔
      Descriptor.resolve g.types module.typeName action = none ∧
        e = .invariant module.name module.typeName action := by
  rw [forwardersOf, hmodule]
  cases hresolve : Descriptor.resolve g.types module.typeName action with
  | none =>
    simp only [hresolve, Except.error.injEq, true_and]
    exact eq_comm
  | some descriptor =>
    have hsteps : (Step.ofMethod descriptor.method).mapM (Forwarder.render descriptor) = .ok _ :=
      mapM_eq_ok_map fun step _ => Forwarder.render_eq_ok descriptor step
    simp only [hresolve, hsteps, reduceCtorEq, false_and]

/-- **A production has the result that is said without the loop.** -/
theorem produce_eq_iff (hg : g.IsPrepared) {result : Except GenerateError Document} :
    g.produce = result ↔ g.Produces result := by
  constructor
  · rintro rfl
    cases h : g.produce with
    | ok d =>
      rw [eq_documentOf_plan hg h]
      exact .document ((exists_produce_iff hg).mp ⟨d, h⟩)
    | error e =>
      rw [hg.produce_eq, map_eq_error_iff, mapM_eq_error_iff] at h
      obtain ⟨before, ⟨action, owner⟩, after, hsplit, hbefore, hfail⟩ := h
      have hmem : (action, owner) ∈ g.actions.entries := by
        rw [hsplit]
        exact List.mem_append_right before List.mem_cons_self
      obtain ⟨module, hmodule⟩ := hg.exists_module? hmem
      obtain ⟨hnone, rfl⟩ := (forwardersOf_eq_error_iff hmodule).mp hfail
      exact .missing hsplit (fun entry he => exists_forwardersOf_iff.mp (hbefore entry he))
        hmodule hnone
  · intro h
    cases h with
    | missing split resolved first unresolved =>
      rw [hg.produce_eq, map_eq_error_iff, mapM_eq_error_iff]
      refine ⟨_, _, _, split, fun entry he => exists_forwardersOf_iff.mpr (resolved entry he), ?_⟩
      exact (forwardersOf_eq_error_iff first).mpr ⟨unresolved, rfl⟩
    | document resolved => exact produce_of_descriptors hg resolved

/-- An assertion gives two steps, every other method one. -/
theorem length_ofMethod (method : String) :
    (Step.ofMethod method).length
      = if Step.beginsWith "see" method || Step.beginsWith "dontSee" method then 2 else 1 := by
  rw [Step.ofMethod]
  by_cases hsee : Step.beginsWith "see" method = true
  · simp [hsee]
  · by_cases hdont : Step.beginsWith "dontSee" method = true
    · simp [hsee, hdont]
    · by_cases ham : Step.beginsWith "am" method = true <;> simp [hsee, hdont, ham]

theorem length_flatMap_ofMethod (actions : List String) :
    (actions.flatMap Step.ofMethod).length
      = actions.length
        + actions.countP fun a => Step.beginsWith "see" a || Step.beginsWith "dontSee" a := by
  induction actions with
  | nil => rfl
  | cons action rest ih =>
    rw [List.flatMap_cons, List.length_append, length_ofMethod, ih, List.length_cons,
      List.countP_cons]
    split <;> omega

/-- **What a production gives.** It has the result that is said without the loop. On the way the
owner of every action is the name of a module, no action was emitted before, and every forwarding
method can be written, so no template fails; and a document has one method for each action and
another one for each assertion. -/
theorem produces_plan (hg : g.IsPrepared) :
    (∀ result, g.produce = result ↔ g.Produces result) ∧
    (∀ before action owner after, g.actions.entries = before ++ (action, owner) :: after →
      (g.module? owner).isSome ∧ action ∉ before.map (·.1)) ∧
    (∀ p ∈ g.plan, Forwarder.render p.1 p.2 = .ok (Forwarder.text p.1 p.2)) ∧
    (∀ name fault, g.produce ≠ .error (.template name fault)) ∧
    ∀ d, g.produce = .ok d →
      d.methodCount = g.actions.size + (g.actions.entries.map (·.1)).countP fun a =>
        Step.beginsWith "see" a || Step.beginsWith "dontSee" a := by
  refine ⟨fun _ => produce_eq_iff hg, ?_, ?_, ?_, ?_⟩
  · intro before action owner after hsplit
    have hmem : (action, owner) ∈ g.actions.entries := by
      rw [hsplit]
      exact List.mem_append_right before List.mem_cons_self
    exact ⟨Option.isSome_iff_exists.mpr (hg.exists_module? hmem), hg.not_mem_before hsplit⟩
  · exact fun p _ => Forwarder.render_eq_ok p.1 p.2
  · intro name fault h
    cases (produce_eq_iff hg).mp h
  · intro d hd
    have hplan : d.methodCount = g.plan.length := by
      rw [Document.methodCount, eq_documentOf_plan hg hd]
      exact List.length_map _
    rw [hplan, ← List.length_map (f := (·.2)), map_snd_plan hg hd, steps, ← List.flatMap_map,
      length_flatMap_ofMethod, List.length_map, ActionRegistry.size]

/-- Two modules may carry one name. The action of the second one is then looked for from the type of
the first, where it is missing. -/
theorem seeText_missing_behind_shared_name :
    let source : ModuleSource := {
      instantiate := fun name => .ok ⟨"M", name⟩
      actions := fun module => if module.typeName = "T1" then ["click"] else ["seeText"] }
    let types : TypeTable := .ofList [
      { name := "T1", methods := [{ name := "click" }] },
      { name := "T2", methods := [{ name := "seeText" }] }]
    ∃ g, prepare ⟨"Acceptance", "", ["T1", "T2"]⟩ source types.introspector = .ok g ∧
      g.IsPrepared ∧ g.produce = .error (.invariant "M" "T1" "seeText") := by
  intro source types
  obtain ⟨g, hg, hactions, hmodule, hclick, hseeText⟩ :
      ∃ g, prepare ⟨"Acceptance", "", ["T1", "T2"]⟩ source types.introspector = .ok g ∧
        g.actions.entries = [("click", "M")] ++ ("seeText", "M") :: [] ∧
        g.module? "M" = some ⟨"M", "T1"⟩ ∧ (g.descriptor? "click" "M").isSome ∧
        Descriptor.resolve g.types "T1" "seeText" = none :=
    ⟨_, rfl, by decide +kernel, rfl, by decide +kernel, by decide +kernel⟩
  refine ⟨g, hg, .of_prepare hg, ?_⟩
  refine ((produces_plan (.of_prepare hg)).1 _).mpr ?_
  exact .missing hactions (by simpa using hclick) hmodule hseeText

end TestActor.Generator
