import TestActor.Proofs.FingerprintText
import TestActor.Proofs.ManifestGeneration

/-!
# Generations with the same fingerprint

The text that a fingerprint is taken of names the actions in the order in which they are written.
The steps of an action depend on its name alone, so two generations with the same text write the
same forwarding methods one after the other, whatever modules, types and settings they started from.
What the types say shows in the owner of a method, in its parameters and in its documentation.

## Main definitions

* `Generator.Writes`: a text is the forwarding method for a step of a registered action.
* `Generator.WrittenAlike`: two texts are the forwarding methods for the same step.

## Main statements

* `Generator.forwardersOf_alike`: an action gives the same steps wherever it is found.
* `Generator.documents_alike`: documents with the same hashed text have the same methods, but for
  owners, parameters and documentation.
-/

namespace TestActor

/-- Results for the same elements belong together. -/
theorem forall₂_of_common {α β γ : Type} {R : α → β → Prop} {S : α → γ → Prop} {xs : List α}
    {ys : List β} {zs : List γ} (hR : List.Forall₂ R xs ys) (hS : List.Forall₂ S xs zs) :
    List.Forall₂ (fun y z => ∃ x ∈ xs, R x y ∧ S x z) ys zs := by
  induction hR generalizing zs with
  | nil =>
    cases hS
    exact .nil
  | @cons x y xs ys hy _ ih =>
    cases hS with
    | cons hz hzs =>
      refine .cons ⟨x, List.mem_cons_self, hy, hz⟩ ((ih hzs).imp ?_)
      rintro _ _ ⟨w, hw, hboth⟩
      exact ⟨w, List.mem_cons_of_mem x hw, hboth⟩

namespace Generator

variable {g g' : Generator} {d d' : Document} {action owner : String} {texts texts' : List String}

/-- The text is the forwarding method for a step of a registered action: the template filled in for
the step and for what is found behind the action, a method of the same name. Word by word, this has
the name and the kind of the step and the name of the action in their places, and in the others what
the descriptor says: documentation, owner and parameters. -/
structure Writes (g : Generator) (action owner : String) (step : Step) (text : String) : Prop where
  registered : (action, owner) ∈ g.actions.entries
  of_action : step ∈ Step.ofMethod action
  rendered : ∃ descriptor, g.descriptor? action owner = some descriptor ∧
    descriptor.method = action ∧ Forwarder.render descriptor step = .ok text ∧
    text = Forwarder.wording (Forwarder.docText descriptor.doc step.kind) descriptor.owner action
      step.name (Parameter.listText descriptor.params) step.kind.name

/-- The texts are the forwarding methods of two generators for the same step of the same action. So
they have the same public name, run the same kind of step and call a method of the same name; what
may differ is the rest of the descriptors: owner, parameters and documentation. -/
def WrittenAlike (g g' : Generator) (text text' : String) : Prop :=
  ∃ action owner step, g.Writes action owner step text ∧ g'.Writes action owner step text'

/-! ## One action -/

/-- The forwarding methods of an action are written for its steps, in order. -/
theorem forall₂_writes (hentry : (action, owner) ∈ g.actions.entries)
    (h : g.forwardersOf action owner = .ok texts) :
    List.Forall₂ (g.Writes action owner) (Step.ofMethod action) texts := by
  have hfound := exists_forwardersOf_iff.mp ⟨texts, h⟩
  obtain ⟨descriptor, hdescriptor⟩ := Option.isSome_iff_exists.mp hfound
  rw [forwardersOf_of_descriptor? hdescriptor] at h
  rw [← Except.ok.inj h, List.forall₂_map_right_iff, List.forall₂_same]
  intro step hstep
  have hmethod := method_of_descriptor? hdescriptor
  have hdeclares := Forwarder.declares_text descriptor step
  unfold Forwarder.Declares at hdeclares
  rw [hmethod] at hdeclares
  exact ⟨hentry, hstep, descriptor, hdescriptor, hmethod, Forwarder.render_eq_ok descriptor step,
    hdeclares⟩

/-- **An action gives the same steps wherever it is found.** -/
theorem forwardersOf_alike (hentry : (action, owner) ∈ g.actions.entries)
    (hentry' : (action, owner) ∈ g'.actions.entries) (h : g.forwardersOf action owner = .ok texts)
    (h' : g'.forwardersOf action owner = .ok texts') :
    List.Forall₂ (WrittenAlike g g') texts texts' := by
  refine (forall₂_of_common (forall₂_writes hentry h) (forall₂_writes hentry' h')).imp ?_
  rintro text text' ⟨step, -, hwrites, hwrites'⟩
  exact ⟨action, owner, step, hwrites, hwrites'⟩

/-! ## All actions -/

/-- The methods of a document are joined from one list for each action that is not passed over. -/
theorem exists_parts (h : g.produce = .ok d) :
    ∃ parts, List.Forall₂ (fun entry part => g.forwardersOf entry.1 entry.2 = .ok part)
      (firstOf (·.1) [] g.actions.entries) parts ∧ parts.flatten = d.methods := by
  obtain ⟨methods, hmethods, rfl⟩ := produce_eq_ok_iff.mp h
  rw [forwarders_eq, map_eq_ok_iff] at hmethods
  obtain ⟨parts, hparts, hflat⟩ := hmethods
  exact ⟨parts, mapM_eq_ok_iff.mp hparts, hflat⟩

/-- **What documents with the same hashed text share**, for any two generators that produce them:
the number of methods and, position by position, the public name, the kind of step and the method
that is called. -/
theorem documents_alike (hsubject : g'.subject = g.subject) (hd : g.produce = .ok d)
    (hd' : g'.produce = .ok d') :
    d'.methodCount = d.methodCount ∧ List.Forall₂ (WrittenAlike g g') d.methods d'.methods := by
  obtain ⟨-, hentries, -⟩ := Fingerprint.subject_inj hsubject
  obtain ⟨parts, hparts, hmethods⟩ := exists_parts hd
  obtain ⟨parts', hparts', hmethods'⟩ := exists_parts hd'
  rw [hentries] at hparts'
  have halike : List.Forall₂ (WrittenAlike g g') d.methods d'.methods := by
    rw [← hmethods, ← hmethods']
    refine List.rel_flatten ((forall₂_of_common hparts hparts').imp ?_)
    rintro texts texts' ⟨⟨action, owner⟩, hmem, h, h'⟩
    have hentry := (mem_firstOf hmem).1
    exact forwardersOf_alike hentry (hentries ▸ hentry) h h'
  exact ⟨halike.length_eq.symm, halike⟩

/-- The same action is declared by the type of the module or inherited, with other parameters and
another comment, and written into another class. -/
theorem documents_alike_of_seeText :
    let own : Manifest := {
      modules := [{ name := "Web", typeName := "Browser" }]
      types := .ofList [
        { name := "Browser"
          methods := [{ name := "seeText", doc := some "/** Looks. */" }] }] }
    let inherited : Manifest := {
      modules := [{ name := "Web", typeName := "Client" }]
      types := .ofList [
        { name := "Client", parent := some "Base" },
        { name := "Base", methods := [{ name := "seeText", params := [{ name := "text" }] }] }] }
    ∃ g g' d d', own.prepare ⟨"Acceptance", "Tests", ["Web"]⟩ = .ok g ∧
      inherited.prepare ⟨"Unit", "", ["Web"]⟩ = .ok g' ∧ g'.subject = g.subject ∧
      g.produce = .ok d ∧ g'.produce = .ok d' ∧ d'.methodCount = d.methodCount ∧
      g.plan.map (·.1.owner) = ["Browser", "Browser"] ∧
      g'.plan.map (·.1.owner) = ["Base", "Base"] ∧
      List.Forall₂ (WrittenAlike g g') d.methods d'.methods := by
  intro own inherited
  obtain ⟨g, hg, hversion, hmodules, hentries, howners⟩ : ∃ g,
      own.prepare ⟨"Acceptance", "Tests", ["Web"]⟩ = .ok g ∧ g.version = currentVersion ∧
      g.settings.modules = ["Web"] ∧ g.actions.entries = [("seeText", "Web")] ∧
      g.plan.map (·.1.owner) = ["Browser", "Browser"] :=
    ⟨_, rfl, rfl, rfl, by decide +kernel, by decide +kernel⟩
  obtain ⟨g', hg', hversion', hmodules', hentries', howners'⟩ : ∃ g',
      inherited.prepare ⟨"Unit", "", ["Web"]⟩ = .ok g' ∧ g'.version = currentVersion ∧
      g'.settings.modules = ["Web"] ∧ g'.actions.entries = [("seeText", "Web")] ∧
      g'.plan.map (·.1.owner) = ["Base", "Base"] :=
    ⟨_, rfl, rfl, rfl, by decide +kernel, by decide +kernel⟩
  have hsame : g'.subject = g.subject :=
    Fingerprint.subject_eq_iff.mpr ⟨hversion'.trans hversion.symm, hentries'.trans hentries.symm,
      hmodules'.trans hmodules.symm⟩
  obtain ⟨d, hd⟩ := Manifest.exists_produce hg
  obtain ⟨d', hd'⟩ := Manifest.exists_produce hg'
  obtain ⟨hcount, halike⟩ := documents_alike hsame hd hd'
  exact ⟨g, g', d, d', hg, hg', hsame, hd, hd', hcount, howners, howners', halike⟩

end Generator

end TestActor
