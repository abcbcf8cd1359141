import Mathlib.Data.List.Induction
import TestActor.Proofs.CheckAndBuild
import TestActor.Proofs.DocumentSettings
import TestActor.Proofs.ReplacementFrame

/-!
# Runs of commands and edits

A project is worked on in steps: commands are run, and files are written anew. Whatever the steps
are, the place of the generated file holds the whole document of an earlier build or no file. What
may be at the place instead is a directory, when the path of the file leads through its own place
and a build has made the parents of the path before it could not go on.

## Main definitions

* `ProjectStep`: what may be done in one step.
* `ProjectStep.Does`: what a step does.
* `FileSystem.afterSteps`: the file system after some steps.

## Main statements

* `ProjectStep.does`: every step does one of these things.
* `ProjectStep.Does.changes`: what one step changes at the place of the generated file.
* `generated_file_after_steps`: what is at that place after any number of steps.
-/

namespace TestActor

variable {start fs fs' : FileSystem} {config : Path} {force : Bool} {place : Place}
  {step : ProjectStep} {steps : List ProjectStep}

/-- A command that is run, or a file that is written by someone else. -/
inductive ProjectStep where
  | perform (command : CommandLine.Command) (force : Bool)
  | rewrite (path : Path) (content : ByteArray)

namespace ProjectStep

/-- What a step leaves. -/
def leaves (config : Path) (fs : FileSystem) : ProjectStep → FileSystem
  | perform command force => (runOn (CommandLine.perform command config force) fs).2
  | rewrite path content => (FileSystem.attempt (·.write path content) fs).2

/-- Does a step fail? -/
def Fails (config : Path) (fs : FileSystem) : ProjectStep → Prop
  | perform command force => ∃ e, (runOn (CommandLine.perform command config force) fs).1 = .error e
  | rewrite path content => ∃ failure, fs.write path content = .error failure

/-- A build with a project that is loaded, and the document that is produced for it. -/
structure Gives (step : ProjectStep) (config : Path) (fs : FileSystem) (project : Project)
    (document : Document) : Prop where
  build : ∃ force, step = .perform .build force
  loaded : fs.project config = .ok project
  produced : ∃ generator, project.generator = .ok generator ∧ generator.produce = .ok document

/-- A build that fails, and before that makes a directory at a place: it is the place of a parent of
the generated file. -/
structure MakesDirectory (step : ProjectStep) (config : Path) (fs : FileSystem) (place : Place) :
    Prop where
  build : ∃ force, step = .perform .build force
  fails : step.Fails config fs
  parent : ∃ project, fs.project config = .ok project ∧
    ∃ parent ∈ FileSystem.above project.outputPath, fs.denoted parent = place

end ProjectStep

/-- The file system after some steps. -/
def FileSystem.afterSteps (config : Path) (start : FileSystem) (steps : List ProjectStep) :
    FileSystem :=
  steps.foldl (ProjectStep.leaves config) start

theorem FileSystem.afterSteps_concat (config : Path) (start : FileSystem)
    (steps : List ProjectStep) (step : ProjectStep) :
    start.afterSteps config (steps ++ [step]) = step.leaves config (start.afterSteps config steps) := by
  unfold afterSteps
  rw [List.foldl_append]
  rfl

/-! ## What a step leaves -/

theorem runOn_perform_build :
    runOn (CommandLine.perform .build config force) fs
      = ((runOn (build config force) fs).1.map fun outcome =>
          ⟨CommandLine.ExitCode.ok, CommandLine.buildText outcome, ""⟩,
        (runOn (build config force) fs).2) :=
  runOn_bind_pure _

/-- A document is written with a line break behind it. -/
theorem Generator.withFinalBreak_of_produce {g : Generator} {d : Document}
    (h : g.produce = .ok d) : Artifact.withFinalBreak d.source = d.source ++ "\n" := by
  obtain ⟨methods, -, rfl⟩ := produce_eq_ok_iff.mp h
  unfold Artifact.withFinalBreak
  rw [getLast?_source, if_neg (by decide)]

namespace ProjectStep

open FileSystem

theorem leaves_build :
    (perform .build force).leaves config fs = (runOn (build config force) fs).2 := by
  show (runOn _ fs).2 = _
  rw [runOn_perform_build]

theorem fails_build_iff :
    (perform .build force).Fails config fs ↔ ∃ e, (runOn (build config force) fs).1 = .error e := by
  show (∃ e, (runOn _ fs).1 = .error e) ↔ _
  rw [runOn_perform_build]
  exact exists_congr fun e => map_eq_error_iff

theorem leaves_of_ne_build {command : CommandLine.Command} (h : command ≠ .build) :
    (perform command force).leaves config fs = fs :=
  runOn_perform_of_ne_build h

/-- What a step does, and the file system that it leaves. -/
inductive Does (config : Path) (fs : FileSystem) (step : ProjectStep) : FileSystem → Prop
  | nothing : Does config fs step fs
  | rewrites {path : Path} {content : ByteArray} {left : FileSystem}
      (hstep : step = .rewrite path content) (hwrite : fs.write path content = .ok left) :
      Does config fs step left
  /-- A build that has a document, but does not write it. -/
  | fails {project : Project} {document : Document} {failure : Disk.ReplaceError}
      {left : FileSystem} (hgives : step.Gives config fs project document)
      (hfails : step.Fails config fs)
      (hreplace : runOn (Disk.replaceFile project.outputPath (document.source ++ "\n")) fs
        = (.error failure, left)) : Does config fs step left
  /-- A build that writes its document. -/
  | builds {project : Project} {document : Document} {left : FileSystem}
      (hgives : step.Gives config fs project document) (hsucceeds : ¬ step.Fails config fs)
      (hreplace : runOn (Disk.replaceFile project.outputPath (document.source ++ "\n")) fs
        = (.ok (), left)) : Does config fs step left

/-- **Every step does one of these things.** -/
theorem does (config : Path) (fs : FileSystem) (step : ProjectStep) :
    step.Does config fs (step.leaves config fs) := by
  cases step with
  | rewrite path content =>
    show Does config fs _ (attempt (·.write path content) fs).2
    unfold attempt
    split
    · exact .nothing
    · next left hwrite => exact .rewrites rfl hwrite
  | perform command force =>
    by_cases hbuild : command = .build
    · subst hbuild
      rw [leaves_build]
      cases hrun : runOn (build config force) fs with
      | mk result left =>
        have hfails : (perform .build force).Fails config fs ↔ ∃ e, result = .error e := by
          rw [fails_build_iff, hrun]
        cases builds_of_runOn hrun with
        | unsurveyed survey => exact .nothing
        | skipped survey fresh => exact .nothing
        | unproduced survey due produced => exact .nothing
        | unreplaced survey due produced replaced =>
          obtain ⟨project, generator, stored, hproject, hgenerator, -, rfl⟩ :=
            survey_eq_ok_iff.mp survey
          rw [Generator.withFinalBreak_of_produce produced] at replaced
          exact .fails ⟨⟨force, rfl⟩, hproject, generator, hgenerator, produced⟩
            (hfails.mpr ⟨_, rfl⟩) replaced
        | replaced survey due produced replaced =>
          obtain ⟨project, generator, stored, hproject, hgenerator, -, rfl⟩ :=
            survey_eq_ok_iff.mp survey
          rw [Generator.withFinalBreak_of_produce produced] at replaced
          refine .builds ⟨⟨force, rfl⟩, hproject, generator, hgenerator, produced⟩ ?_ replaced
          rw [hfails]
          rintro ⟨e, he⟩
          cases he
    · rw [leaves_of_ne_build hbuild]
      exact .nothing

/-- A step leaves directories where they are. -/
theorem Does.exists_kept (h : step.Does config fs fs') : ∃ touched, Kept touched fs fs' := by
  cases h with
  | nothing => exact ⟨[], .refl [] fs⟩
  | rewrites hstep hwrite => exact ⟨_, kept_write hwrite⟩
  | fails hgives hfails hreplace => exact ⟨_, kept_of_replaceFile_error hreplace⟩
  | builds hgives hsucceeds hreplace => exact ⟨_, kept_replaceFile hreplace⟩

/-! ## The place of the generated file -/

/-- What a step changes at the place of the generated file. -/
inductive Changes (config : Path) (place : Place) (fs : FileSystem) (step : ProjectStep)
    (left : FileSystem) : Prop
  /-- What was there is there. -/
  | same (hsame : left.get? place = fs.get? place)
  /-- A directory is made where nothing was. -/
  | directory (hnone : fs.get? place = none) (hdirectory : left.get? place = some .directory)
      (hmakes : step.MakesDirectory config fs place)
  /-- A document is written. -/
  | document {project : Project} {document : Document}
      (hgives : step.Gives config fs project document) (hsucceeds : ¬ step.Fails config fs)
      (hread : left.read project.outputPath = .ok (document.source ++ "\n").toUTF8)

/-- **One step changes nothing at the place of the generated file, or makes a directory there, or
writes a document.** -/
theorem Does.changes (h : step.Does config fs fs')
    (hplace : ∀ project, fs.project config = .ok project → fs.denoted project.outputPath = place)
    (hrewrite : ∀ path content, step = .rewrite path content → fs.denoted path ≠ place) :
    step.Changes config place fs fs' := by
  cases h with
  | nothing => exact .same rfl
  | rewrites hstep hwrite =>
    refine .same ?_
    obtain ⟨written, htarget, -, -, rfl⟩ := write_eq_ok_iff.mp hwrite
    have hne := hrewrite _ _ hstep
    rw [← eq_denoted_of_target htarget] at hne
    exact get?_put_of_ne fs _ hne.symm
  | fails hgives hfails hreplace =>
    have hat := get?_of_replaceFile_error hreplace
    rw [hplace _ hgives.loaded] at hat
    rcases hat with hsame | ⟨hnone, hdirectory, parent, hparent, hdenoted⟩
    · exact .same hsame
    · exact .directory hnone hdirectory
        ⟨hgives.build, hfails, _, hgives.loaded, parent, hparent, hdenoted⟩
  | builds hgives hsucceeds hreplace =>
    exact .document hgives hsucceeds (read_of_replaceFile hreplace)

end ProjectStep

/-! ## Runs -/

namespace FileSystem

theorem denoted_afterSteps (config : Path) (start : FileSystem) (steps : List ProjectStep)
    (path : Path) : (start.afterSteps config steps).denoted path = start.denoted path := by
  induction steps using List.reverseRecOn with
  | nil => rfl
  | append_singleton done step ih =>
    obtain ⟨touched, hkept⟩ := (step.does config (start.afterSteps config done)).exists_kept
    rw [afterSteps_concat, hkept.denoted, ih]

end FileSystem

/-- The generated file of a run is always at the same place, and nothing but the commands writes
it. -/
structure KeepsOutput (config : Path) (place : Place) (start : FileSystem)
    (steps : List ProjectStep) : Prop where
  output : ∀ done, done <+: steps → ∀ project,
    (start.afterSteps config done).project config = .ok project →
      start.denoted project.outputPath = place
  rewritten : ∀ path content, .rewrite path content ∈ steps → start.denoted path ≠ place

namespace KeepsOutput

theorem of_isPrefix {sofar : List ProjectStep} (h : KeepsOutput config place start steps)
    (hbeginning : sofar <+: steps) : KeepsOutput config place start sofar where
  output done hdone := h.output done (hdone.trans hbeginning)
  rewritten path content hmem := h.rewritten path content (hbeginning.subset hmem)

/-- What the last step of a run changes at the place of the generated file. -/
theorem changes {done : List ProjectStep} (h : KeepsOutput config place start (done ++ [step])) :
    step.Changes config place (start.afterSteps config done)
      (step.leaves config (start.afterSteps config done)) := by
  refine (step.does config _).changes (fun project hproject => ?_) fun path content hstep => ?_
  · rw [FileSystem.denoted_afterSteps]
    exact h.output done (List.prefix_append done [step]) project hproject
  · rw [FileSystem.denoted_afterSteps]
    exact h.rewritten path content (by simp [hstep])

end KeepsOutput

/-- **What is at the place of the generated file after a run**: nothing, or a document that an
earlier step gave, or a directory that an earlier step made. -/
theorem FileSystem.found_after_steps (hkeeps : KeepsOutput config place start steps)
    (hstart : start.get? place = none) :
    (start.afterSteps config steps).get? place = none ∨
    (∃ done step project document, done ++ [step] <+: steps ∧
      step.Gives config (start.afterSteps config done) project document ∧
      (start.afterSteps config steps).read project.outputPath
        = .ok (document.source ++ "\n").toUTF8) ∨
    (start.afterSteps config steps).get? place = some .directory ∧
      ∃ done step, done ++ [step] <+: steps ∧
        step.MakesDirectory config (start.afterSteps config done) place := by
  induction steps using List.reverseRecOn with
  | nil => exact .inl hstart
  | append_singleton before last ih =>
    have hbefore : before <+: before ++ [last] := List.prefix_append before [last]
    rw [afterSteps_concat]
    cases hkeeps.changes with
    | directory hnone hdirectory hmakes =>
      exact .inr (.inr ⟨hdirectory, before, last, List.prefix_rfl, hmakes⟩)
    | document hgives hsucceeds hread =>
      exact .inr (.inl ⟨before, last, _, _, List.prefix_rfl, hgives, hread⟩)
    | same hsame =>
      rcases ih (hkeeps.of_isPrefix hbefore) with hnone | ⟨done, step, project, document, hdone,
        hgives, hread⟩ | ⟨hdirectory, done, step, hdone, hmakes⟩
      · exact .inl (hsame.trans hnone)
      · refine .inr (.inl ⟨done, step, project, document, hdone.trans hbefore, hgives, ?_⟩)
        -- the path of the file still leads to its place, and there nothing has changed
        obtain ⟨hfollow, hfile⟩ := file_of_read hread
        obtain ⟨touched, hkept⟩ := (last.does config (start.afterSteps config before)).exists_kept
        have hplace : (start.afterSteps config before).denoted project.outputPath = place := by
          rw [denoted_afterSteps]
          exact hkeeps.output done
            ((List.prefix_append done [step]).trans (hdone.trans hbefore)) project hgives.loaded
        rw [hplace] at hfollow hfile
        exact read_eq_ok_iff.mpr ⟨place, hkept.follow hfollow, hsame.trans hfile⟩
      · exact .inr (.inr ⟨hsame.trans hdirectory, done, step, hdone.trans hbefore, hmakes⟩)

/-- A step that fails changes no file at the place of the generated file, and puts none there. -/
theorem ProjectStep.Changes.file_iff_of_fails (h : step.Changes config place fs fs')
    (hfails : step.Fails config fs) (content : ByteArray) :
    fs'.get? place = some (.file content) ↔ fs.get? place = some (.file content) := by
  cases h with
  | same hsame => rw [hsame]
  | directory hnone hdirectory hmakes =>
    rw [hnone, hdirectory]
    exact iff_of_false (fun he => by cases he) (fun he => by cases he)
  | document hgives hsucceeds hread => exact absurd hfails hsucceeds

/-- **The generated file is whole after any number of steps.** Commands are run and files are written
anew, but the place of the generated file stays the same and is written by no one else. When nothing
was there at first, then at every point nothing is there; or the file there is the source of a
document with a line break behind it, an earlier build has produced that document for the project as
it was then, and the stamp of the file is the fingerprint of the document; or there is a directory,
which an earlier build that failed has made as one of the parents of the file. A step that fails
leaves the file there as it is, and puts none there. -/
theorem generated_file_after_steps (hkeeps : KeepsOutput config place start steps)
    (hstart : start.get? place = none) :
    ((start.afterSteps config steps).get? place = none ∨
      (∃ done step project document, done ++ [step] <+: steps ∧
        step.Gives config (start.afterSteps config done) project document ∧
        (start.afterSteps config steps).get? place
          = some (.file (document.source ++ "\n").toUTF8) ∧
        runOn (Artifact.readStamp project.outputPath) (start.afterSteps config steps)
          = (.ok (some document.fingerprint), start.afterSteps config steps)) ∨
      (start.afterSteps config steps).get? place = some .directory ∧
        ∃ done step, done ++ [step] <+: steps ∧
          step.MakesDirectory config (start.afterSteps config done) place) ∧
    ∀ done step, done ++ [step] <+: steps → step.Fails config (start.afterSteps config done) →
      ∀ content, (start.afterSteps config (done ++ [step])).get? place = some (.file content) ↔
        (start.afterSteps config done).get? place = some (.file content) := by
  constructor
  · rcases FileSystem.found_after_steps hkeeps hstart with hnone | ⟨done, step, project, document,
      hdone, hgives, hread⟩ | hdirectory
    · exact .inl hnone
    · refine .inr (.inl ⟨done, step, project, document, hdone, hgives, ?_, ?_⟩)
      · have hfile := (FileSystem.file_of_read hread).2
        rw [FileSystem.denoted_afterSteps, hkeeps.output done
          ((List.prefix_append done [step]).trans hdone) project hgives.loaded] at hfile
        exact hfile
      · obtain ⟨generator, -, hproduce⟩ := hgives.produced
        rw [runOn_readStamp, FileSystem.stamp_of_read hread,
          ← Generator.withFinalBreak_of_produce hproduce, Generator.stamp_of_produce hproduce]
    · exact .inr (.inr hdirectory)
  · intro done step hdone hfails content
    rw [FileSystem.afterSteps_concat]
    exact (hkeeps.of_isPrefix hdone).changes.file_iff_of_fails hfails content

/-! ## Two runs -/

namespace KeepsOutput

theorem nil {project : Project} (hproject : start.project config = .ok project)
    (hplace : start.denoted project.outputPath = place) : KeepsOutput config place start [] where
  output done hdone found hfound := by
    rw [List.prefix_nil.mp hdone] at hfound
    rw [Except.ok.inj (hfound.symm.trans hproject), hplace]
  rewritten path content hmem := by cases hmem

theorem concat {project : Project} (h : KeepsOutput config place start steps)
    (hproject : (start.afterSteps config (steps ++ [step])).project config = .ok project)
    (hplace : start.denoted project.outputPath = place)
    (hrewrite : ∀ path content, step = .rewrite path content → start.denoted path ≠ place) :
    KeepsOutput config place start (steps ++ [step]) where
  output done hdone found hfound := by
    rcases List.prefix_concat_iff.mp hdone with rfl | hdone
    · rw [Except.ok.inj (hfound.symm.trans hproject), hplace]
    · exact h.output done hdone found hfound
  rewritten path content hmem := by
    rcases List.mem_append.mp hmem with hmem | hmem
    · exact h.rewritten path content hmem
    · exact hrewrite path content (List.mem_singleton.mp hmem).symm

end KeepsOutput

namespace OneModule

/-- The namespace is edited, then comes a build. -/
def builtRun : List ProjectStep :=
  [.rewrite configPath (configText "B").toUTF8] ++ [.perform .build false]

/-- A check comes last. -/
def checkedRun : List ProjectStep :=
  builtRun ++ [.perform .check false]

theorem afterSteps_checkedRun :
    files.afterSteps configPath checkedRun = files.afterSteps configPath builtRun := by
  unfold checkedRun
  rw [FileSystem.afterSteps_concat, ProjectStep.leaves_of_ne_build (by decide)]

theorem keepsOutput_checkedRun :
    KeepsOutput configPath ["AcceptanceActions.php", "_generated"] files checkedRun := by
  have hplace : ∀ nspace, files.denoted (inNamespace nspace).outputPath
      = ["AcceptanceActions.php", "_generated"] := by
    intro nspace
    show files.denoted (inNamespace "A").outputPath = _
    decide
  have hedited : (files.afterSteps configPath [.rewrite configPath (configText "B").toUTF8]).project
      configPath = .ok (inNamespace "B") := by decide +kernel
  have hbuilt : (files.afterSteps configPath builtRun).project configPath
      = .ok (inNamespace "B") := by decide +kernel
  have hkeepsEdited := (KeepsOutput.nil project_files (hplace "A")).concat hedited (hplace "B") <| by
    intro path content hstep
    cases hstep
    decide
  have hkeepsBuilt := hkeepsEdited.concat hbuilt (hplace "B") fun _ _ hstep => by cases hstep
  exact hkeepsBuilt.concat (by rw [← hbuilt, ← afterSteps_checkedRun]; rfl) (hplace "B")
    fun _ _ hstep => by cases hstep

/-- After the check the document of the build is there. -/
theorem generated_file_after_check :
    ∃ done step project document, done ++ [step] <+: checkedRun ∧
      step.Gives configPath (files.afterSteps configPath done) project document ∧
      (files.afterSteps configPath checkedRun).get? ["AcceptanceActions.php", "_generated"]
        = some (.file (document.source ++ "\n").toUTF8) := by
  have hthere : ((files.afterSteps configPath checkedRun).get?
      ["AcceptanceActions.php", "_generated"]).map (· == .directory) = some false := by
    rw [afterSteps_checkedRun]
    decide +kernel
  rcases (generated_file_after_steps keepsOutput_checkedRun (by decide +kernel)).1 with hnone |
    ⟨done, step, project, document, hdone, hgives, hfile, -⟩ | ⟨hdirectory, -⟩
  · rw [hnone] at hthere
    cases hthere
  · exact ⟨done, step, project, document, hdone, hgives, hfile⟩
  · rw [hdirectory] at hthere
    exact absurd hthere (by decide)

end OneModule

namespace ThroughItself

open OneModule (configPath manifestText)

/-- The path of the generated file leads through the place of the file. -/
def outputPath : Path := ⟨"a/../a"⟩

def files : FileSystem where
  entries := [(["actiongen.toml"], .file "modules = [\"M\"]\noutput = \"a/../a\"\n".toUTF8),
    (["modules.toml"], .file manifestText.toUTF8)]
  current := []

def project : Project where
  config := { modules := ["M"], output := some outputPath }
  manifest := (OneModule.inNamespace "A").manifest
  base := ⟨""⟩

/-- A build makes the parents of the file first, and one of them is at the place of the file. The
file cannot be moved there, and the directory is left. -/
theorem directory_after_build :
    project.IsApart files configPath ∧
      KeepsOutput configPath ["a"] files [.perform .build false] ∧ files.get? ["a"] = none ∧
      (ProjectStep.perform .build false).Fails configPath files ∧
      (files.afterSteps configPath [.perform .build false]).get? ["a"] = some .directory := by
  have hloaded : files.project configPath = .ok project := by decide +kernel
  have hbuilt : (files.afterSteps configPath [.perform .build false]).project configPath
      = .ok project := by decide +kernel
  have hfails : (runOn (build configPath false) files).1.toOption = none := by decide +kernel
  refine ⟨?_, ?_, by decide +kernel, ?_, by decide +kernel⟩
  · unfold Project.IsApart
    decide +kernel
  · exact (KeepsOutput.nil hloaded (by decide)).concat hbuilt (by decide)
      fun _ _ hstep => by cases hstep
  · rw [ProjectStep.fails_build_iff]
    generalize (runOn (build configPath false) files).1 = result at hfails ⊢
    cases result with
    | error e => exact ⟨e, rfl⟩
    | ok outcome => cases hfails

end ThroughItself

end TestActor
