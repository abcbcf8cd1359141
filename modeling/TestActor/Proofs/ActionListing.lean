import TestActor.Proofs.DocumentSettings
import TestActor.Proofs.PublicNames
import TestActor.Proofs.Rebuild

/-!
# The listing of the actions

The command for actions prints one line for each registered action: the action, its owner and the
steps that it gives. The steps are read off the name of the action, without looking for the method.
A production looks for the module of the owner, finds the descriptor of the method there, and reads
the steps off the name in the descriptor. Both go through the registered actions in order, so the
listing shows what a build writes. Names are printed as they are, so a name with a tab, a line feed
or a comma is not read back.

## Main definitions

* `CommandLine.readListing`: the rows of a printed listing.
* `CommandLine.IsListable`: an action and an owner without the characters that part fields.
* `Generator.listedSteps`: the listed steps, each with its action.

## Main statements

* `CommandLine.readListing_actionsText_iff`: when a printed listing is read back.
* `Generator.declares_listedSteps`: the methods of a document declare the listed steps.
* `Generator.planOf_of_mem_listing`: a listed row has the owner and the steps that are planned.
* `listing_agrees_with_build`: the listing agrees with the generated file.
-/

namespace TestActor

open Text

/-! ## Characters of names -/

theorem Text.mem_replaceAll {old new s : List Char} {c : Char} (h : c ∈ replaceAll old new s) :
    c ∈ new ∨ c ∈ s := by
  fun_induction replaceAll old new s with
  | case1 => simp at h
  | case2 d r _ ih =>
    rcases List.mem_append.mp h with h | h
    · exact .inl h
    · exact (ih h).imp id fun hmem => List.mem_cons_of_mem d (List.mem_of_mem_drop hmem)
  | case3 d r _ ih =>
    rcases List.mem_cons.mp h with rfl | h
    · exact .inr List.mem_cons_self
    · exact (ih h).imp id (List.mem_cons_of_mem d)

/-- The names of steps have the characters of the action and some letters besides. -/
theorem Step.mem_name_of_mem_ofMethod {method : String} {step : Step} {c : Char}
    (h : step ∈ ofMethod method) (hc : c ∈ step.name.toList) :
    c ∈ method.toList ∨ c ∈ "cantSee".toList := by
  have hname : step.name ∈ (ofMethod method).map (·.name) := List.mem_map_of_mem h
  rcases mem_names_iff.mp hname with hconditional | hown
  · rcases conditionalName?_eq_some_iff.mp hconditional with ⟨hsee, hcan⟩ | ⟨hdont, hcant⟩
    · obtain ⟨rest, hrest⟩ := beginsWith_iff.mp hsee
      have hletters : ∀ c ∈ "canSee".toList, c ∈ "cantSee".toList := by simp
      rw [hcan, toList_canName hrest, List.mem_append] at hc
      rw [hrest, List.mem_append]
      rcases hc with hc | hc
      · exact .inr (hletters c hc)
      · exact .inl (.inr hc)
    · obtain ⟨rest, hrest⟩ := beginsWith_iff.mp hdont
      have hletters : ∀ c ∈ "cant".toList, c ∈ "cantSee".toList := by simp
      rw [hcant, toList_cantName hrest, List.mem_append] at hc
      rw [hrest, List.mem_append]
      rcases hc with hc | hc
      · exact .inr hc
      · rcases Text.mem_replaceAll hc with hc | hc
        · exact .inr (hletters c hc)
        · exact .inl (.inr hc)
  · rw [hown] at hc
    exact .inl hc

/-! ## Reading a listing -/

namespace CommandLine

/-- Reads a pair of a kind and a name, which the first colon parts. -/
def readStep (pair : List Char) : Option Step := do
  let kind ← StepKind.ofName? (String.ofList (pair.takeWhile (· != ':')))
  return ⟨kind, String.ofList ((pair.dropWhile (· != ':')).drop 1)⟩

/-- Reads the line of an action. -/
def readRow (line : List Char) : Option (String × String × List Step) :=
  match line.splitOn '\t' with
  | [action, owner, pairs] => do
    let steps ← (pairs.splitOn ',').mapM readStep
    return (String.ofList action, String.ofList owner, steps)
  | _ => none

/-- Reads a listing; behind its last line there is nothing. -/
def readListing (text : String) : Option (List (String × String × List Step)) :=
  (text.toList.splitOn '\n').dropLast.mapM readRow

/-- Neither name has a tab or a line feed, and there is no comma in that of the action. -/
structure IsListable (action owner : String) : Prop where
  action : ∀ c ∈ action.toList, c ∉ ['\t', '\n', ',']
  owner : ∀ c ∈ owner.toList, c ∉ ['\t', '\n']

/-- The pair of a step, as it is printed. -/
def stepText (step : Step) : String :=
  step.kind.name ++ ":" ++ step.name

theorem toList_stepText (step : Step) :
    (stepText step).toList = step.kind.name.toList ++ ':' :: step.name.toList := by
  simp [stepText]

theorem not_mem_kindName (kind : StepKind) :
    ∀ c ∈ kind.name.toList, c ∉ ['\t', '\n', ',', ':'] := by
  cases kind <;> simp [StepKind.name]

/-- **The pair of a step is read back**, also when there is a colon in the name. -/
theorem readStep_stepText (step : Step) : readStep (stepText step).toList = some step := by
  have hkind : ∀ c ∈ step.kind.name.toList, (c != ':') = true := by
    intro c hc
    have hcolon := not_mem_kindName step.kind c hc
    simp only [List.mem_cons, not_or] at hcolon
    simpa using hcolon.2.2.2.1
  rw [toList_stepText, readStep, List.takeWhile_append_of_pos hkind,
    List.dropWhile_append_of_pos hkind]
  simp [StepKind.ofName?_name]

/-- In the pair of a step of a listable action no character parts fields. -/
theorem not_mem_stepText {action owner : String} {step : Step} (h : IsListable action owner)
    (hstep : step ∈ Step.ofMethod action) :
    ∀ c ∈ (stepText step).toList, c ∉ ['\t', '\n', ','] := by
  intro c hc
  rw [toList_stepText, List.mem_append, List.mem_cons] at hc
  rcases hc with hc | rfl | hc
  · intro hmem
    refine not_mem_kindName step.kind c hc ?_
    exact List.mem_append_left [':'] hmem
  · decide
  · rcases Step.mem_name_of_mem_ofMethod hstep hc with hc | hc
    · exact h.action c hc
    · have hletters : ∀ c ∈ "cantSee".toList, c ∉ ['\t', '\n', ','] := by simp
      exact hletters c hc

theorem mem_of_mem_intercalate {mark c : Char} {parts : List (List Char)}
    (h : c ∈ [mark].intercalate parts) : c = mark ∨ ∃ part ∈ parts, c ∈ part := by
  induction parts with
  | nil => simp [List.intercalate] at h
  | cons first rest ih =>
    by_cases hrest : rest = []
    · rw [hrest, List.intercalate_singleton] at h
      exact .inr ⟨first, List.mem_cons_self, h⟩
    · rw [List.intercalate_cons_of_ne_nil hrest, List.append_assoc, List.mem_append,
        List.mem_append, List.mem_singleton] at h
      rcases h with h | h | h
      · exact .inr ⟨first, List.mem_cons_self, h⟩
      · exact .inl h
      · exact (ih h).imp id fun ⟨part, hpart, hc⟩ => ⟨part, List.mem_cons_of_mem first hpart, hc⟩

/-- Lines that all have a mark behind them are parted by it, with nothing behind the last. -/
theorem flatMap_eq_intercalate (mark : Char) (lines : List (List Char)) :
    lines.flatMap (· ++ [mark]) = [mark].intercalate (lines ++ [[]]) := by
  induction lines with
  | nil => exact List.intercalate_singleton.symm
  | cons line rest ih =>
    have hne : rest ++ [[]] ≠ [] := by simp
    rw [List.cons_append, List.intercalate_cons_of_ne_nil hne, List.flatMap_cons, ih]

/-- The fields of the line of an action. -/
def fields (action owner : String) (steps : List Step) : List (List Char) :=
  [action.toList, owner.toList, [','].intercalate (steps.map fun step => (stepText step).toList)]

/-- The line of an action, without its line feed. -/
def rowText (action owner : String) (steps : List Step) : List Char :=
  ['\t'].intercalate (fields action owner steps)

theorem toList_actionText (action owner : String) (steps : List Step) :
    (actionText action owner steps).toList = rowText action owner steps ++ ['\n'] := by
  unfold actionText rowText fields stepText
  simp [List.intercalate_cons_cons, Function.comp_def]

/-- Only the commas between pairs part a field of a listable action. -/
theorem not_mem_of_mem_fields {action owner : String} (h : IsListable action owner)
    {field : List Char} (hfield : field ∈ fields action owner (Step.ofMethod action)) :
    ∀ c ∈ field, c ∉ ['\t', '\n'] := by
  intro c hc
  simp only [fields, List.mem_cons, List.not_mem_nil, or_false] at hfield
  rcases hfield with rfl | rfl | rfl
  · intro hmem
    exact h.action c hc (List.mem_append_left [','] hmem)
  · exact h.owner c hc
  · rcases mem_of_mem_intercalate hc with rfl | ⟨pair, hpair, hc⟩
    · decide
    · obtain ⟨step, hstep, rfl⟩ := List.mem_map.mp hpair
      intro hmem
      exact not_mem_stepText h hstep c hc (List.mem_append_left [','] hmem)

/-- **The line of an action is read back.** -/
theorem readRow_rowText {action owner : String} (h : IsListable action owner) :
    readRow (rowText action owner (Step.ofMethod action))
      = some (action, owner, Step.ofMethod action) := by
  have hsplit : (rowText action owner (Step.ofMethod action)).splitOn '\t'
      = fields action owner (Step.ofMethod action) := by
    refine List.splitOn_intercalate '\t' ?_ (List.cons_ne_nil _ _)
    intro field hfield htab
    exact not_mem_of_mem_fields h hfield _ htab (by decide)
  have hcommas : ([','].intercalate
      ((Step.ofMethod action).map fun step => (stepText step).toList)).splitOn ','
        = (Step.ofMethod action).map fun step => (stepText step).toList := by
    refine List.splitOn_intercalate ',' ?_ (by simpa using Step.ofMethod_ne_nil action)
    intro pair hpair hcomma
    obtain ⟨step, hstep, rfl⟩ := List.mem_map.mp hpair
    exact not_mem_stepText h hstep _ hcomma (by decide)
  have hsteps : ((Step.ofMethod action).map fun step => (stepText step).toList).mapM readStep
      = some (Step.ofMethod action) := mapM_map_eq_some fun step _ => readStep_stepText step
  unfold readRow
  simp [hsplit, fields, hcommas, hsteps]

theorem lineFeed_not_mem_rowText {action owner : String} (h : IsListable action owner) :
    '\n' ∉ rowText action owner (Step.ofMethod action) := by
  intro hmem
  rcases mem_of_mem_intercalate hmem with htab | ⟨field, hfield, hfeed⟩
  · exact absurd htab (by decide)
  · exact not_mem_of_mem_fields h hfield _ hfeed (by decide)

variable {g : Generator}

/-- **A printed listing is read back**, when no name has a character that parts fields. -/
theorem readListing_actionsText (h : ∀ entry ∈ g.actions.entries, IsListable entry.1 entry.2) :
    readListing (actionsText g) = some g.listing := by
  have htext : (actionsText g).toList
      = (g.listing.map fun row => rowText row.1 row.2.1 row.2.2).flatMap (· ++ ['\n']) := by
    unfold actionsText
    rw [String.toList_join, List.flatMap_map, List.flatMap_map]
    exact List.flatMap_congr fun row _ => toList_actionText row.1 row.2.1 row.2.2
  have hrow : ∀ row ∈ g.listing, IsListable row.1 row.2.1 ∧ row.2.2 = Step.ofMethod row.1 := by
    intro row hmem
    obtain ⟨⟨action, owner⟩, hentry, rfl⟩ := List.mem_map.mp hmem
    exact ⟨h _ hentry, rfl⟩
  unfold readListing
  rw [htext, flatMap_eq_intercalate, List.splitOn_intercalate '\n' ?_ (by simp),
    List.dropLast_concat]
  · refine mapM_map_eq_some fun row hmem => ?_
    obtain ⟨hlistable, hsteps⟩ := hrow row hmem
    rw [hsteps, readRow_rowText hlistable, ← hsteps]
  · intro line hline hfeed
    rw [List.mem_append, List.mem_singleton] at hline
    rcases hline with hline | rfl
    · obtain ⟨row, hmem, rfl⟩ := List.mem_map.mp hline
      obtain ⟨hlistable, hsteps⟩ := hrow row hmem
      rw [hsteps] at hfeed
      exact lineFeed_not_mem_rowText hlistable hfeed
    · cases hfeed

/-! ## Names that are read -/

/-- A part of a split text has characters of the text, but not the one that was split at. -/
theorem mem_of_mem_splitOn {mark c : Char} {text part : List Char}
    (hpart : part ∈ text.splitOn mark) (hc : c ∈ part) : c ∈ text ∧ c ≠ mark := by
  induction text generalizing part with
  | nil =>
    rw [List.splitOn_nil, List.mem_singleton] at hpart
    rw [hpart] at hc
    cases hc
  | cons d rest ih =>
    rw [List.splitOn, List.splitOnP_cons_eq_if_modifyHead, ← List.splitOn] at hpart
    split at hpart
    · rcases List.mem_cons.mp hpart with rfl | hpart
      · cases hc
      · exact (ih hpart hc).imp_left (List.mem_cons_of_mem d)
    · next hne =>
      obtain ⟨first, others, hsplit⟩ :=
        List.exists_cons_of_ne_nil (List.splitOn_ne_nil mark rest)
      rw [hsplit, List.modifyHead_cons] at hpart
      have hrest : ∀ other ∈ first :: others, c ∈ other → c ∈ d :: rest ∧ c ≠ mark :=
        fun other hother hmem =>
          (ih (hsplit ▸ hother) hmem).imp_left (List.mem_cons_of_mem d)
      rcases List.mem_cons.mp hpart with rfl | hpart
      · rcases List.mem_cons.mp hc with rfl | hc
        · exact ⟨List.mem_cons_self, by simpa using hne⟩
        · exact hrest first List.mem_cons_self hc
      · exact hrest part (List.mem_cons_of_mem first hpart) hc

theorem mem_of_readStep {pair : List Char} {step : Step} {c : Char}
    (h : readStep pair = some step) (hc : c ∈ step.name.toList) : c ∈ pair := by
  obtain ⟨kind, -, hstep⟩ := Option.bind_eq_some_iff.mp h
  rw [← Option.some.inj hstep, String.toList_ofList] at hc
  exact List.dropWhile_subset _ (List.mem_of_mem_drop hc)

/-- No name that is read from a line has a tab in it, and no name of a step has a comma. -/
theorem mem_of_readRow {line : List Char} {action owner : String} {steps : List Step} {c : Char}
    (h : readRow line = some (action, owner, steps)) :
    (c ∈ action.toList ∨ c ∈ owner.toList → c ∈ line ∧ c ≠ '\t') ∧
      ∀ step ∈ steps, c ∈ step.name.toList → c ≠ ',' := by
  unfold readRow at h
  split at h
  · next fst snd pairs hsplit =>
    obtain ⟨found, hfound, hrow⟩ := Option.bind_eq_some_iff.mp h
    obtain ⟨rfl, rfl, rfl⟩ : String.ofList fst = action ∧ String.ofList snd = owner ∧
      found = steps := by simpa using hrow
    have hfield : ∀ field ∈ [fst, snd, pairs], c ∈ field → c ∈ line ∧ c ≠ '\t' :=
      fun field hfield hc => mem_of_mem_splitOn (hsplit ▸ hfield) hc
    refine ⟨?_, fun step hstep hc => ?_⟩
    · rw [String.toList_ofList, String.toList_ofList]
      rintro (hc | hc)
      · exact hfield fst (by simp) hc
      · exact hfield snd (by simp) hc
    · obtain ⟨pair, hpair, hread⟩ := exists_of_mem_mapM hfound hstep
      exact (mem_of_mem_splitOn hpair (mem_of_readStep hread hc)).2
  · cases h

/-- **A printed listing is read back exactly when all its names can be read.** -/
theorem readListing_actionsText_iff :
    readListing (actionsText g) = some g.listing ↔
      ∀ entry ∈ g.actions.entries, IsListable entry.1 entry.2 := by
  refine ⟨fun h => ?_, readListing_actionsText⟩
  rintro ⟨action, owner⟩ hentry
  have hrow : (action, owner, Step.ofMethod action) ∈ g.listing :=
    List.mem_map.mpr ⟨(action, owner), hentry, rfl⟩
  obtain ⟨line, hline, hread⟩ := exists_of_mem_mapM h hrow
  have hfeed : ∀ c ∈ line, c ≠ '\n' :=
    fun c hc => (mem_of_mem_splitOn (List.dropLast_subset _ hline) hc).2
  have hnames : ∀ c, c ∈ action.toList ∨ c ∈ owner.toList → c ≠ '\t' ∧ c ≠ '\n' := by
    intro c hc
    obtain ⟨hmem, htab⟩ := (mem_of_readRow hread).1 hc
    exact ⟨htab, hfeed c hmem⟩
  constructor
  · intro c hc
    -- the last step of the action has its own name
    have hown : action ∈ (Step.ofMethod action).map (·.name) := Step.mem_names_iff.mpr (.inr rfl)
    obtain ⟨step, hstep, hname⟩ := List.mem_map.mp hown
    have hcomma := (mem_of_readRow hread).2 step hstep (hname.symm ▸ hc)
    simpa using ⟨(hnames c (.inl hc)).1, (hnames c (.inl hc)).2, hcomma⟩
  · intro c hc
    simpa using hnames c (.inr hc)

end CommandLine

/-! ## The listing and the plan -/

namespace Generator

variable {g : Generator} {action owner : String} {steps : List Step}

/-- The listing has the registered actions in order. -/
theorem map_listing (g : Generator) :
    g.listing.map (fun row => (row.1, row.2.1)) = g.actions.entries := by
  unfold listing
  rw [List.map_map]
  exact List.map_id _

/-- The listed steps are those of the registered actions. -/
theorem flatMap_listing (g : Generator) : g.listing.flatMap (·.2.2) = g.steps := by
  unfold listing steps
  rw [List.flatMap_map]

/-- The listed steps, each with its action. -/
def listedSteps (g : Generator) : List (String × Step) :=
  g.listing.flatMap fun row => row.2.2.map (row.1, ·)

theorem map_listedSteps (g : Generator) : g.listedSteps.map (·.2) = g.listing.flatMap (·.2.2) := by
  unfold listedSteps
  rw [List.map_flatMap]
  refine List.flatMap_congr fun row _ => ?_
  rw [List.map_map]
  exact List.map_id _

/-- **The listed steps are planned for methods with the names of their actions.** -/
theorem listedSteps_eq (hg : g.IsPrepared) {document : Document}
    (hproduce : g.produce = .ok document) :
    g.listedSteps = g.plan.map fun p => (p.1.method, p.2) := by
  have hsome := (exists_produce_iff hg).mp ⟨document, hproduce⟩
  unfold listedSteps listing
  rw [plan, List.map_flatMap, List.flatMap_map]
  refine List.flatMap_congr fun entry hentry => ?_
  obtain ⟨action, owner⟩ := entry
  obtain ⟨descriptor, hdescriptor⟩ := Option.isSome_iff_exists.mp (hsome _ hentry)
  simp only [planOf, hdescriptor, List.map_map, Function.comp_def,
    method_of_descriptor? hdescriptor]

/-- **The methods of a document declare the listed steps**: each text has the name and the kind of
the step, and calls a method with the name of the action. -/
theorem declares_listedSteps (hg : g.IsPrepared) {document : Document}
    (hproduce : g.produce = .ok document) :
    List.Forall₂ (fun listed text => ∃ shown owner params, text =
      Forwarder.wording shown owner listed.1 listed.2.name params listed.2.kind.name)
      g.listedSteps document.methods := by
  rw [listedSteps_eq hg hproduce, List.forall₂_map_left_iff]
  exact (declares_plan_of_produce hg hproduce).imp fun _ _ h => ⟨_, _, _, h⟩

/-- **A listed row has the owner and the steps that are planned**: the owner names the module from
whose type the descriptor is found, and the steps are those that are written for it. -/
theorem planOf_of_mem_listing (hg : g.IsPrepared) {document : Document}
    (hproduce : g.produce = .ok document) (h : (action, owner, steps) ∈ g.listing) :
    ∃ module descriptor, g.module? owner = some module ∧ module.name = owner ∧
      Descriptor.resolve g.types module.typeName action = some descriptor ∧
      g.planOf (action, owner) = steps.map (descriptor, ·) := by
  obtain ⟨⟨action', owner'⟩, hentry, hrow⟩ := List.mem_map.mp h
  obtain ⟨rfl, rfl, rfl⟩ := by simpa using hrow
  obtain ⟨descriptor, hdescriptor⟩ :=
    Option.isSome_iff_exists.mp ((exists_produce_iff hg).mp ⟨document, hproduce⟩ _ hentry)
  obtain ⟨module, hmodule, hresolve⟩ := Option.bind_eq_some_iff.mp hdescriptor
  have hname : module.name = owner' := by simpa using List.find?_some hmodule
  refine ⟨module, descriptor, hmodule, hname, hresolve, ?_⟩
  simp only [planOf, hdescriptor]

end Generator

/-! ## The listing and a build -/

variable {fs : FileSystem} {config : Path} {project : Project} {g : Generator}

theorem runOn_perform_actions (hproject : fs.project config = .ok project)
    (hgenerator : project.generator = .ok g) (force : Bool) :
    runOn (CommandLine.perform .actions config force) fs
      = (.ok ⟨CommandLine.ExitCode.ok, CommandLine.actionsText g, ""⟩, fs) := by
  refine (runOn_bind_of_reads (runOn_loadGenerator config) fun _ => runOn_pure _).trans ?_
  rw [hproject]
  show ((project.generator >>= fun g => .ok _), fs) = _
  rw [hgenerator]
  rfl

/-- What a forced build that succeeds has written. -/
theorem contents_of_forced_build (hproject : fs.project config = .ok project)
    (hgenerator : project.generator = .ok g) {document : Document}
    (hproduce : g.produce = .ok document) {outcome : Outcome} {left : FileSystem}
    (hbuild : runOn (build config true) fs = (.ok outcome, left)) :
    outcome.methods = some document.methodCount ∧
      left.read outcome.outputPath = .ok document.contents := by
  obtain ⟨found, written, hfound, hwritten, hpath, hmethods, hreplace⟩ :=
    replaced_of_build hproject hbuild (written_of_force hbuild)
  obtain rfl := Except.ok.inj (hgenerator.symm.trans hfound)
  obtain rfl := Except.ok.inj (hproduce.symm.trans hwritten)
  rw [hpath]
  exact ⟨hmethods, FileSystem.read_of_replaceFile hreplace⟩

/-- **The listing of the actions agrees with what a forced build writes.** The command prints the
listing, which has the registered actions in order; what is printed can be read back exactly when no
name has a character that parts fields. The owner of each action names the module from whose type
the method is resolved. The listed steps, one after the other, are those of the planned methods. A
document can be produced, its methods are the plan, rendered in order, and their texts declare the
listed steps, position by position. A forced build that succeeds writes this document and reports as
many methods as there are listed steps. -/
theorem listing_agrees_with_build (hload : runOn (Project.load config) fs = (.ok project, fs))
    (hgenerator : project.generator = .ok g) :
    (∀ force, runOn (CommandLine.perform .actions config force) fs
      = (.ok ⟨CommandLine.ExitCode.ok, CommandLine.actionsText g, ""⟩, fs)) ∧
    (CommandLine.readListing (CommandLine.actionsText g) = some g.listing ↔
      ∀ entry ∈ g.actions.entries, CommandLine.IsListable entry.1 entry.2) ∧
    g.listing.map (fun row => (row.1, row.2.1)) = g.actions.entries ∧
    (∀ action owner steps, (action, owner, steps) ∈ g.listing → ∃ module descriptor,
      g.module? owner = some module ∧ module.name = owner ∧
      Descriptor.resolve g.types module.typeName action = some descriptor ∧
      g.planOf (action, owner) = steps.map (descriptor, ·)) ∧
    g.listing.flatMap (·.2.2) = g.plan.map (·.2) ∧
    g.listedSteps.map (·.2) = g.listing.flatMap (·.2.2) ∧
    ∃ document, g.produce = .ok document ∧
      List.Forall₂ (fun p text => Forwarder.render p.1 p.2 = .ok text) g.plan document.methods ∧
      List.Forall₂ (fun listed text => ∃ shown owner params, text =
        Forwarder.wording shown owner listed.1 listed.2.name params listed.2.kind.name)
        g.listedSteps document.methods ∧
      ∀ outcome left, runOn (build config true) fs = (.ok outcome, left) →
        outcome.methods = some (g.listing.flatMap (·.2.2)).length ∧
        left.read outcome.outputPath = .ok document.contents := by
  have hproject := project_of_load hload
  have hprepare : project.manifest.prepare project.config.settings = .ok g :=
    Project.generator_eq_ok_iff.mp hgenerator
  have hg : g.IsPrepared := .of_prepare hprepare
  obtain ⟨document, hproduce⟩ := Manifest.exists_produce hprepare
  have hrendered := Generator.render_plan_of_produce hg hproduce
  have hsteps : g.listing.flatMap (·.2.2) = g.plan.map (·.2) :=
    g.flatMap_listing.trans (Generator.map_snd_plan hg hproduce).symm
  refine ⟨runOn_perform_actions hproject hgenerator, CommandLine.readListing_actionsText_iff,
    g.map_listing, fun action owner steps => Generator.planOf_of_mem_listing hg hproduce, hsteps,
    g.map_listedSteps, document, hproduce, hrendered, Generator.declares_listedSteps hg hproduce,
    fun outcome left hbuild => ?_⟩
  obtain ⟨hmethods, hread⟩ := contents_of_forced_build hproject hgenerator hproduce hbuild
  refine ⟨?_, hread⟩
  rw [hmethods, hsteps, List.length_map]
  exact congrArg some hrendered.length_eq.symm

/-- One action that is an assertion gives one line with two steps, and two methods are written. -/
theorem OneModule.listing_of_seeText :
    ∃ g outcome left, (inNamespace "A").generator = .ok g ∧
      runOn (CommandLine.perform .actions configPath false) files
        = (.ok ⟨0, "seeText\tM\tConditionalAssertion:canSeeText,Assertion:seeText\n", ""⟩, files) ∧
      CommandLine.readListing (CommandLine.actionsText g) = some [("seeText", "M",
        [⟨.conditionalAssertion, "canSeeText"⟩, ⟨.assertion, "seeText"⟩])] ∧
      runOn (build configPath true) files = (.ok outcome, left) ∧ outcome.methods = some 2 := by
  obtain ⟨g, hg, hentries⟩ : ∃ g, (inNamespace "A").generator = .ok g ∧
      g.actions.entries = [("seeText", "M")] := ⟨_, rfl, by decide +kernel⟩
  obtain ⟨outcome, left, hbuild, -⟩ : ∃ outcome left,
      runOn (build configPath true) files = (.ok outcome, left) ∧ outcome.written = true :=
    exists_outcome (by decide +kernel)
  have hlisting : g.listing = [("seeText", "M",
      [⟨.conditionalAssertion, "canSeeText"⟩, ⟨.assertion, "seeText"⟩])] := by
    unfold Generator.listing
    rw [hentries]
    decide +kernel
  have htext : CommandLine.actionsText g
      = "seeText\tM\tConditionalAssertion:canSeeText,Assertion:seeText\n" := by
    unfold CommandLine.actionsText
    rw [hlisting]
    decide +kernel
  have hlistable : ∀ entry ∈ g.actions.entries, CommandLine.IsListable entry.1 entry.2 := by
    rw [hentries]
    simp only [List.mem_singleton, forall_eq]
    exact ⟨by simp, by simp⟩
  obtain ⟨hcommand, hread, -, -, -, -, document, -, -, -, hforced⟩ :=
    listing_agrees_with_build load_files hg
  obtain ⟨hmethods, -⟩ := hforced outcome left hbuild
  refine ⟨g, outcome, left, hg, ?_, (hread.mpr hlistable).trans (congrArg some hlisting), hbuild, ?_⟩
  · rw [hcommand false, htext]
    rfl
  · rw [hmethods, hlisting]
    rfl

namespace CommaInName

open OneModule (configPath configText)

def files : FileSystem where
  entries := [(["actiongen.toml"], .file (configText "A").toUTF8),
    (["modules.toml"], .file ("[[modules]]\nname = \"M\"\ntype = \"T\"\n\n" ++
      "[[types]]\nname = \"T\"\nmethods = [\x7b name = \"seeA,Action:b\" \x7d]\n").toUTF8)]
  current := []

def loaded : Project where
  config := (OneModule.inNamespace "A").config
  manifest := {
    modules := [{ name := "M", typeName := "T" }]
    types := .ofList [{ name := "T", methods := [{ name := "seeA,Action:b" }] }] }
  base := ⟨""⟩

theorem project_files : files.project configPath = .ok loaded := by
  decide +kernel

/-- The comma in the name of an action parts its steps as well. What is printed reads as four steps,
and a forced build writes two methods. -/
theorem four_steps_read_of_two :
    ∃ g outcome left, runOn (Project.load configPath) files = (.ok loaded, files) ∧
      loaded.generator = .ok g ∧
      runOn (CommandLine.perform .actions configPath false) files
        = (.ok ⟨0, "seeA,Action:b\tM\t" ++
            "ConditionalAssertion:canSeeA,Action:b,Assertion:seeA,Action:b\n", ""⟩, files) ∧
      CommandLine.readListing (CommandLine.actionsText g) = some [("seeA,Action:b", "M",
        [⟨.conditionalAssertion, "canSeeA"⟩, ⟨.action, "b"⟩, ⟨.assertion, "seeA"⟩,
          ⟨.action, "b"⟩])] ∧
      runOn (build configPath true) files = (.ok outcome, left) ∧ outcome.methods = some 2 := by
  obtain ⟨g, hg, hlisting, hplan⟩ : ∃ g, loaded.generator = .ok g ∧
      g.listing = [("seeA,Action:b", "M",
        [⟨.conditionalAssertion, "canSeeA,Action:b"⟩, ⟨.assertion, "seeA,Action:b"⟩])] ∧
      g.plan.length = 2 := ⟨_, rfl, by decide +kernel, by decide +kernel⟩
  have htext : CommandLine.actionsText g = "seeA,Action:b\tM\t" ++
      "ConditionalAssertion:canSeeA,Action:b,Assertion:seeA,Action:b\n" := by
    unfold CommandLine.actionsText
    rw [hlisting]
    decide +kernel
  obtain ⟨document, hproduce⟩ := Manifest.exists_produce (Project.generator_eq_ok_iff.mp hg)
  have hrendered := Generator.render_plan_of_produce
    (.of_prepare (Project.generator_eq_ok_iff.mp hg)) hproduce
  obtain ⟨outcome, left, hbuild, -⟩ : ∃ outcome left,
      runOn (build configPath true) files = (.ok outcome, left) ∧ outcome.written = true :=
    exists_outcome (by decide +kernel)
  obtain ⟨hmethods, -⟩ := contents_of_forced_build project_files hg hproduce hbuild
  refine ⟨g, outcome, left, ?_, hg, ?_, ?_, hbuild, ?_⟩
  · rw [runOn_load, project_files]
  · rw [runOn_perform_actions project_files hg, htext]
    rfl
  · rw [htext]
    decide +kernel
  · rw [hmethods, ← hplan, hrendered.length_eq]
    rfl

end CommaInName

end TestActor
