import TestActor.Proofs.Preparation
import TestActor.Proofs.Substitution

/-!
# What a generation produces

A generator that was prepared produces a document when every registered action has a descriptor.
The templates cannot stand in the way: each of their placeholders is given a value.

## Main definitions

* `Generator.descriptor?`: what is found behind a registered action.
* `Generator.plan`: the forwarding methods to write, each as a descriptor with a step.
* `Generator.documentOf`: the document with given forwarding methods.

## Main statements

* `Generator.exists_produce_iff`: when there is a document.
* `Generator.eq_documentOf_plan`: the document has the plan as its methods.
* `Generator.render_plan_of_produce`: the methods of a document are the plan, rendered in order.
-/

namespace TestActor

theorem Descriptor.method_of_resolve {types : Introspector} {type method : String}
    {d : Descriptor} (h : resolve types type method = some d) : d.method = method := by
  rw [resolve] at h
  obtain ⟨owner, -, h⟩ := Option.bind_eq_some_iff.mp h
  obtain ⟨params, -, h⟩ := Option.bind_eq_some_iff.mp h
  rw [← Option.some.inj h]

namespace Generator

variable {g : Generator} {action owner : String} {d : Document}

/-! ## One action -/

/-- What is found behind a registered action. -/
def descriptor? (g : Generator) (action owner : String) : Option Descriptor :=
  (g.module? owner).bind fun module => Descriptor.resolve g.types module.typeName action

theorem method_of_descriptor? {descriptor : Descriptor}
    (h : g.descriptor? action owner = some descriptor) : descriptor.method = action := by
  obtain ⟨module, -, hresolve⟩ := Option.bind_eq_some_iff.mp h
  exact Descriptor.method_of_resolve hresolve

/-- The forwarding methods of an action with a descriptor are its steps, rendered. -/
theorem forwardersOf_of_descriptor? {descriptor : Descriptor}
    (h : g.descriptor? action owner = some descriptor) :
    g.forwardersOf action owner
      = .ok ((Step.ofMethod action).map (Forwarder.text descriptor)) := by
  obtain ⟨module, hmodule, hresolve⟩ := Option.bind_eq_some_iff.mp h
  rw [forwardersOf, hmodule]
  simp only [hresolve, Descriptor.method_of_resolve hresolve]
  exact mapM_eq_ok_map fun step _ => Forwarder.render_eq_ok descriptor step

theorem exists_forwardersOf_iff :
    (∃ texts, g.forwardersOf action owner = .ok texts) ↔
      (g.descriptor? action owner).isSome := by
  cases h : g.descriptor? action owner with
  | some descriptor => simp [forwardersOf_of_descriptor? h]
  | none =>
    rw [forwardersOf]
    cases hmodule : g.module? owner with
    | none => simp
    | some module =>
      rw [descriptor?, hmodule, Option.bind_some] at h
      simp [h]

/-! ## All actions -/

/-- Passing over what was emitted leaves the first entry of each action. -/
theorem forwarders_eq (g : Generator) (emitted : List String) (entries : List (String × String)) :
    g.forwarders emitted entries
      = List.flatten <$> (firstOf (·.1) emitted entries).mapM fun entry =>
          g.forwardersOf entry.1 entry.2 := by
  -- both sides carry the same names along: those that were emitted are those that were met
  induction entries generalizing emitted with
  | nil => rfl
  | cons entry rest ih =>
    obtain ⟨action, owner⟩ := entry
    rw [forwarders, firstOf]
    split
    · exact ih emitted
    · rw [List.mapM_cons, ih]
      cases g.forwardersOf action owner with
      | error e => rfl
      | ok texts =>
        cases (firstOf (·.1) (action :: emitted) rest).mapM fun entry =>
            g.forwardersOf entry.1 entry.2 <;> rfl

/-- In a prepared generator no registered action is passed over. -/
theorem IsPrepared.forwarders_eq (hg : g.IsPrepared) :
    g.forwarders [] g.actions.entries
      = List.flatten <$> g.actions.entries.mapM fun entry => g.forwardersOf entry.1 entry.2 := by
  rw [Generator.forwarders_eq, firstOf_eq_self hg.nodup (by simp)]

/-! ## The document -/

def documentValues (g : Generator) (methods : List String) : Values :=
  [("hash", g.fingerprint),
   ("namespace_prefix", qualifier (withoutSeparators g.settings.nspace)),
   ("name", g.settings.className), ("imports", "\n".intercalate g.imports),
   ("methods", "\n\n ".intercalate methods)]

/-- The document with the given forwarding methods. -/
def documentOf (g : Generator) (methods : List String) : Document where
  nspace := withoutSeparators g.settings.nspace
  fingerprint := g.fingerprint
  imports := g.imports
  methods := methods
  name := g.settings.className ++ "Actions"
  source := Template.substituted (g.documentValues methods) Template.actions.pieces

theorem render_document (g : Generator) (methods : List String) :
    Template.actions.render (g.documentValues methods) = .ok (g.documentOf methods).source := by
  refine Template.render_eq_ok fun key hkey => ?_
  simp only [Template.actions, List.mem_cons, List.not_mem_nil, reduceCtorEq, or_false, false_or,
    Piece.slot.injEq] at hkey
  rcases hkey with rfl | rfl | rfl | rfl | rfl <;> rfl

/-- Only the forwarding methods can fail. -/
theorem produce_eq (g : Generator) :
    g.produce = g.documentOf <$> g.forwarders [] g.actions.entries := by
  rw [produce]
  cases g.forwarders [] g.actions.entries with
  | error e => rfl
  | ok methods =>
    show (Template.actions.render (g.documentValues methods)).bind
      (fun source => .ok { g.documentOf methods with source }) = _
    rw [render_document]
    rfl

theorem produce_eq_ok_iff :
    g.produce = .ok d ↔
      ∃ methods, g.forwarders [] g.actions.entries = .ok methods ∧ g.documentOf methods = d := by
  rw [produce_eq, map_eq_ok_iff]

/-- A production runs through the registered actions and joins their forwarding methods. -/
theorem IsPrepared.produce_eq (hg : g.IsPrepared) :
    g.produce = (fun parts => g.documentOf parts.flatten) <$>
      g.actions.entries.mapM fun entry => g.forwardersOf entry.1 entry.2 := by
  rw [Generator.produce_eq, hg.forwarders_eq]
  cases g.actions.entries.mapM fun entry => g.forwardersOf entry.1 entry.2 <;> rfl

/-- **A prepared generator produces a document when every registered action has a descriptor.** -/
theorem exists_produce_iff (hg : g.IsPrepared) :
    (∃ d, g.produce = .ok d) ↔
      ∀ entry ∈ g.actions.entries, (g.descriptor? entry.1 entry.2).isSome := by
  simp only [← exists_forwardersOf_iff]
  rw [hg.produce_eq, ← exists_mapM_eq_ok_iff]
  simp only [map_eq_ok_iff]
  constructor
  · rintro ⟨_, parts, hparts, -⟩
    exact ⟨parts, hparts⟩
  · rintro ⟨parts, hparts⟩
    exact ⟨_, parts, hparts, rfl⟩

/-! ## The plan -/

/-- The forwarding methods to write for a registered action: its descriptor with each step. -/
def planOf (g : Generator) (entry : String × String) : List (Descriptor × Step) :=
  match g.descriptor? entry.1 entry.2 with
  | none => []
  | some descriptor => (Step.ofMethod entry.1).map (descriptor, ·)

/-- The forwarding methods to write, in order. -/
def plan (g : Generator) : List (Descriptor × Step) :=
  g.actions.entries.flatMap g.planOf

/-- The steps of the registered actions, in order. -/
def steps (g : Generator) : List Step :=
  g.actions.entries.flatMap fun entry => Step.ofMethod entry.1

/-- The forwarding methods of the plan, as texts. -/
def planTexts (g : Generator) : List String :=
  g.plan.map fun p => Forwarder.text p.1 p.2

theorem forwardersOf_eq_planOf {entry : String × String}
    (h : (g.descriptor? entry.1 entry.2).isSome) :
    g.forwardersOf entry.1 entry.2
      = .ok ((g.planOf entry).map fun p => Forwarder.text p.1 p.2) := by
  obtain ⟨descriptor, hd⟩ := Option.isSome_iff_exists.mp h
  rw [forwardersOf_of_descriptor? hd, planOf, hd, List.map_map]
  rfl

/-- The document of a generator whose actions all have descriptors. -/
theorem produce_of_descriptors (hg : g.IsPrepared)
    (h : ∀ entry ∈ g.actions.entries, (g.descriptor? entry.1 entry.2).isSome) :
    g.produce = .ok (g.documentOf g.planTexts) := by
  rw [hg.produce_eq, mapM_eq_ok_map fun entry hentry => forwardersOf_eq_planOf (h entry hentry),
    planTexts, plan, List.map_flatMap, List.flatMap_def]
  rfl

/-- **The document has the plan as its methods.** -/
theorem eq_documentOf_plan (hg : g.IsPrepared) (h : g.produce = .ok d) :
    d = g.documentOf g.planTexts := by
  rw [produce_of_descriptors hg ((exists_produce_iff hg).mp ⟨d, h⟩)] at h
  exact (Except.ok.inj h).symm

/-- **The methods of a document are the plan, rendered in order.** -/
theorem render_plan_of_produce (hg : g.IsPrepared) (h : g.produce = .ok d) :
    List.Forall₂ (fun p text => Forwarder.render p.1 p.2 = .ok text) g.plan d.methods := by
  rw [eq_documentOf_plan hg h]
  show List.Forall₂ _ g.plan (g.plan.map _)
  rw [List.forall₂_map_right_iff, List.forall₂_same]
  exact fun p _ => Forwarder.render_eq_ok p.1 p.2

/-- The methods of a document declare the steps of the plan. -/
theorem declares_plan_of_produce (hg : g.IsPrepared) (h : g.produce = .ok d) :
    List.Forall₂ (fun p text => Forwarder.Declares p.1 p.2 text) g.plan d.methods :=
  (render_plan_of_produce hg h).imp fun _ _ => Forwarder.render_eq_ok_iff.mp

/-- When there is a document, the plan has the steps of all registered actions. -/
theorem map_snd_plan (hg : g.IsPrepared) (h : g.produce = .ok d) :
    g.plan.map (·.2) = g.steps := by
  have hsome := (exists_produce_iff hg).mp ⟨d, h⟩
  rw [plan, steps, List.map_flatMap]
  refine List.flatMap_congr fun entry hentry => ?_
  obtain ⟨descriptor, hd⟩ := Option.isSome_iff_exists.mp (hsome entry hentry)
  rw [planOf, hd, List.map_map]
  exact List.map_id _

end Generator

end TestActor
