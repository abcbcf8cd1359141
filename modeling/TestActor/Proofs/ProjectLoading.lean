import TestActor.CommandLine
import TestActor.Proofs.FileReplacement

/-!
# Loading projects

Loading a project only reads, and what it gives depends on the texts of two files: of the
configuration and of the manifest that the configuration names. A survey depends on the stamp of the
generated file besides. What each of these programs gives is written here as a function of the file
system.

## Main definitions

* `FileSystem.project`, `FileSystem.survey`: what loading and surveying give.
* `OneModule.files`, `OneModule.inNamespace`: the files of a project, and what is loaded from them.

## Main statements

* `runOn_load`, `runOn_survey`: what loading and surveying give.
* `FileSystem.Kept.project`: a project is loaded as before after a change of other files.
-/

namespace TestActor

variable {fs before after : FileSystem}

/-! ## The two files -/

/-- The configuration that a text describes, when it has no fault. -/
def Config.parsed (path : Path) (text : String) : Except ProjectError Config :=
  match Config.ofText text with
  | .error error => .error (.configText path error)
  | .ok config =>
    match config.fault? with
    | some fault => .error (.config fault)
    | none => .ok config

/-- The manifest that a text describes. -/
def Manifest.parsed (path : Path) (text : String) : Except ProjectError Manifest :=
  (Manifest.ofText text).mapError (.manifest path)

/-- The configuration in a file. -/
def FileSystem.config (fs : FileSystem) (path : Path) : Except ProjectError Config := do
  Config.parsed path (← (fs.text path).mapError (.unreadable path))

/-- The manifest in a file. -/
def FileSystem.manifest (fs : FileSystem) (path : Path) : Except ProjectError Manifest := do
  Manifest.parsed path (← (fs.text path).mapError (.unreadableManifest path))

theorem runOn_configLoad (path : Path) :
    runOn (Config.load path) fs = (fs.config path, fs) := by
  refine runOn_bind_of_reads (runOn_adapt_of_reads (runOn_readText path)) fun text => ?_
  unfold Config.parsed
  cases Config.ofText text with
  | error error => rfl
  | ok config =>
    dsimp only
    cases config.fault? <;> rfl

theorem runOn_manifestLoad (path : Path) :
    runOn (Manifest.load path) fs = (fs.manifest path, fs) := by
  refine runOn_bind_of_reads (runOn_adapt_of_reads (runOn_readText path)) fun text => ?_
  unfold Manifest.parsed
  cases Manifest.ofText text <;> rfl

/-! ## Projects -/

/-- The project of a configuration file. -/
def FileSystem.project (fs : FileSystem) (path : Path) : Except ProjectError Project := do
  let config ← fs.config path
  let base := path.parent.getD ⟨""⟩
  let manifest ← fs.manifest (config.manifestPath base)
  return ⟨config, manifest, base⟩

/-- **What loading a project gives.** -/
theorem runOn_load (path : Path) : runOn (Project.load path) fs = (fs.project path, fs) :=
  runOn_bind_of_reads (runOn_configLoad path) fun _ =>
    runOn_bind_of_reads (runOn_manifestLoad _) fun _ => rfl

theorem project_of_load {path : Path} {project : Project}
    (h : runOn (Project.load path) fs = (.ok project, fs)) : fs.project path = .ok project := by
  rw [runOn_load] at h
  exact (Prod.mk.inj h).1

/-- The file of a project's manifest. -/
def Project.manifestPath (project : Project) : Path :=
  project.config.manifestPath project.base

theorem FileSystem.project_eq_ok_iff {path : Path} {project : Project} :
    fs.project path = .ok project ↔
      fs.config path = .ok project.config ∧ project.base = path.parent.getD ⟨""⟩ ∧
        fs.manifest project.manifestPath = .ok project.manifest := by
  unfold FileSystem.project
  rw [bind_eq_ok_iff]
  constructor
  · rintro ⟨config, hconfig, h⟩
    obtain ⟨manifest, hmanifest, h⟩ := bind_eq_ok_iff.mp h
    cases h
    exact ⟨hconfig, rfl, hmanifest⟩
  · rintro ⟨hconfig, hbase, hmanifest⟩
    refine ⟨project.config, hconfig, bind_eq_ok_iff.mpr ⟨project.manifest, ?_, ?_⟩⟩
    · rw [← hbase]
      exact hmanifest
    · rw [← hbase]
      rfl

theorem Project.generator_eq_ok_iff {project : Project} {generator : Generator} :
    project.generator = .ok generator ↔
      Generator.prepare project.config.settings project.manifest.source
        project.manifest.types.introspector = .ok generator :=
  mapError_eq_ok_iff

/-! ## Surveys -/

/-- The stamp of a file. -/
def FileSystem.stamp (fs : FileSystem) (path : Path) : Except ProjectError (Option String) :=
  if fs.isPresent path then
    ((fs.text path).mapError (.unreadable path)).map Stamp.ofContents?
  else .ok none

theorem runOn_readStamp (path : Path) :
    runOn (Artifact.readStamp path) fs = (fs.stamp path, fs) := by
  unfold FileSystem.stamp
  refine (runOn_bind_of_ok (runOn_lift (Disk.isPresent path))).trans ?_
  show runOn (if fs.isPresent path then _ else _) fs = _
  split
  · refine (runOn_bind_of_reads (runOn_adapt_of_reads (runOn_readText path))
      fun _ => runOn_pure _).trans ?_
    cases fs.text path <;> rfl
  · rfl

/-- The survey of a project. -/
def FileSystem.survey (fs : FileSystem) (config : Path) : Except ProjectError Survey := do
  let project ← fs.project config
  let generator ← project.generator
  let stored ← fs.stamp project.outputPath
  return ⟨generator, project.outputPath, .of stored generator.fingerprint⟩

theorem FileSystem.survey_eq_ok_iff {config : Path} {s : Survey} :
    fs.survey config = .ok s ↔
      ∃ project generator stored, fs.project config = .ok project ∧
        project.generator = .ok generator ∧ fs.stamp project.outputPath = .ok stored ∧
        s = ⟨generator, project.outputPath, .of stored generator.fingerprint⟩ := by
  unfold FileSystem.survey
  constructor
  · intro h
    obtain ⟨project, hproject, h⟩ := bind_eq_ok_iff.mp h
    obtain ⟨generator, hgenerator, h⟩ := bind_eq_ok_iff.mp h
    obtain ⟨stored, hstored, h⟩ := bind_eq_ok_iff.mp h
    exact ⟨project, generator, stored, hproject, hgenerator, hstored, (Except.ok.inj h).symm⟩
  · rintro ⟨project, generator, stored, hproject, hgenerator, hstored, rfl⟩
    exact bind_eq_ok_iff.mpr ⟨project, hproject, bind_eq_ok_iff.mpr ⟨generator, hgenerator,
      bind_eq_ok_iff.mpr ⟨stored, hstored, rfl⟩⟩⟩

/-- A survey is one of the project that is loaded. -/
theorem FileSystem.exists_of_survey {config : Path} {s : Survey} {project : Project}
    (hproject : fs.project config = .ok project) (hsurvey : fs.survey config = .ok s) :
    ∃ generator stored, project.generator = .ok generator ∧
      fs.stamp project.outputPath = .ok stored ∧
      s = ⟨generator, project.outputPath, .of stored generator.fingerprint⟩ := by
  obtain ⟨found, generator, stored, hfound, hgenerator, hstored, hs⟩ :=
    survey_eq_ok_iff.mp hsurvey
  obtain rfl : found = project := Except.ok.inj (hfound.symm.trans hproject)
  exact ⟨generator, stored, hgenerator, hstored, hs⟩

theorem Freshness.of_eq_upToDate_iff {stored : Option String} {fingerprint : String} :
    Freshness.of stored fingerprint = .upToDate ↔ stored = some fingerprint := by
  unfold Freshness.of
  split
  · next h => exact iff_of_true rfl h
  · next h => exact iff_of_false (fun he => by cases he) h

/-- **What a survey gives.** -/
theorem runOn_survey (config : Path) : runOn (survey config) fs = (fs.survey config, fs) :=
  runOn_bind_of_reads (runOn_load config) fun project =>
    runOn_bind_of_reads (runOn_liftExcept project.generator) fun _ =>
      runOn_bind_of_reads (runOn_readStamp project.outputPath) fun _ => rfl

theorem runOn_check (config : Path) :
    runOn (check config) fs = ((fs.survey config).map Survey.unwritten, fs) := by
  refine (runOn_bind_of_reads (runOn_survey config) fun s => runOn_pure s.unwritten).trans ?_
  cases fs.survey config <;> rfl

theorem runOn_loadGenerator (config : Path) :
    runOn (CommandLine.loadGenerator config) fs
      = (fs.project config >>= Project.generator, fs) :=
  runOn_bind_of_reads (runOn_load config) fun project => runOn_liftExcept project.generator

theorem runOn_save_eq_ok_iff {path : Path} {source : String} :
    runOn (Artifact.save path source) before = (.ok (), after) ↔
      runOn (Disk.replaceFile path (Artifact.withFinalBreak source)) before = (.ok (), after) :=
  runOn_adapt_eq_ok_iff

/-- **What a build does.** It writes nothing, or it replaces the generated file by the document. -/
theorem runOn_build_eq_ok_iff {config : Path} {force : Bool} {outcome : Outcome} :
    runOn (build config force) before = (.ok outcome, after) ↔
      ∃ s, before.survey config = .ok s ∧
        ((s.freshness = .upToDate ∧ force = false) ∧ outcome = s.unwritten ∧ after = before ∨
          ¬ (s.freshness = .upToDate ∧ force = false) ∧ ∃ document,
            s.generator.produce = .ok document ∧ outcome = s.written document ∧
              runOn (Artifact.save s.outputPath document.source) before = (.ok (), after)) := by
  have hsurvey : ∀ {s left}, runOn (survey config) before = (.ok s, left) ↔
      before.survey config = .ok s ∧ left = before := by
    intro s left
    rw [runOn_survey, Prod.mk.injEq, eq_comm (a := before)]
  unfold build
  rw [runOn_bind_eq_ok_iff]
  constructor
  · rintro ⟨s, left, hs, h⟩
    obtain ⟨hs, rfl⟩ := hsurvey.mp hs
    refine ⟨s, hs, ?_⟩
    -- the program asks for `!force`, the statement says what that means
    by_cases hskip : s.freshness = .upToDate ∧ force = false
    · rw [if_pos (by simpa using hskip), runOn_pure] at h
      cases h
      exact .inl ⟨hskip, rfl, rfl⟩
    · rw [if_neg (by simpa using hskip)] at h
      obtain ⟨document, left, hproduce, hwrite⟩ := runOn_bind_eq_ok_iff.mp h
      obtain ⟨⟨⟩, left', hsave, hend⟩ := runOn_bind_eq_ok_iff.mp hwrite
      rw [runOn_liftExcept, Prod.mk.injEq, mapError_eq_ok_iff] at hproduce
      obtain ⟨hproduce, rfl⟩ := hproduce
      rw [runOn_pure, Prod.mk.injEq] at hend
      obtain ⟨houtcome, rfl⟩ := hend
      exact .inr ⟨hskip, document, hproduce, (Except.ok.inj houtcome).symm, hsave⟩
  · rintro ⟨s, hs, h⟩
    refine ⟨s, before, hsurvey.mpr ⟨hs, rfl⟩, ?_⟩
    rcases h with ⟨hskip, rfl, rfl⟩ | ⟨hskip, document, hproduce, rfl, hsave⟩
    · rw [if_pos (by simpa using hskip), runOn_pure]
    · rw [if_neg (by simpa using hskip)]
      refine runOn_bind_eq_ok_iff.mpr ⟨document, before, ?_, ?_⟩
      · rw [runOn_liftExcept, mapError_eq_ok_iff.mpr hproduce]
      · exact runOn_bind_eq_ok_iff.mpr ⟨(), after, hsave, rfl⟩

/-! ## After a change -/

namespace FileSystem.Kept

variable {touched : List Place} {path : Path}

/-- A text outside the touched places is read as before. -/
theorem text {found : String} (h : Kept touched before after)
    (houtside : before.denoted path ∉ touched) (htext : before.text path = .ok found) :
    after.text path = .ok found := by
  obtain ⟨bytes, hread, htext⟩ := bind_eq_ok_iff.mp htext
  exact bind_eq_ok_iff.mpr ⟨bytes, h.read houtside hread, htext⟩

theorem config {found : Config} (h : Kept touched before after)
    (houtside : before.denoted path ∉ touched) (hconfig : before.config path = .ok found) :
    after.config path = .ok found := by
  obtain ⟨text, htext, hparsed⟩ := bind_eq_ok_iff.mp hconfig
  rw [mapError_eq_ok_iff] at htext
  exact bind_eq_ok_iff.mpr ⟨text, mapError_eq_ok_iff.mpr (h.text houtside htext), hparsed⟩

theorem manifest {found : Manifest} (h : Kept touched before after)
    (houtside : before.denoted path ∉ touched) (hmanifest : before.manifest path = .ok found) :
    after.manifest path = .ok found := by
  obtain ⟨text, htext, hparsed⟩ := bind_eq_ok_iff.mp hmanifest
  rw [mapError_eq_ok_iff] at htext
  exact bind_eq_ok_iff.mpr ⟨text, mapError_eq_ok_iff.mpr (h.text houtside htext), hparsed⟩

/-- **A project whose two files are outside the touched places is loaded as before.** -/
theorem project {found : Project} (h : Kept touched before after)
    (hconfig : before.denoted path ∉ touched)
    (hmanifest : before.denoted found.manifestPath ∉ touched)
    (hproject : before.project path = .ok found) : after.project path = .ok found := by
  obtain ⟨hc, hbase, hm⟩ := project_eq_ok_iff.mp hproject
  exact project_eq_ok_iff.mpr ⟨h.config hconfig hc, hbase, h.manifest hmanifest hm⟩

end FileSystem.Kept

/-! ## A project with one module

The module has one public method. The configuration names a namespace. -/

namespace OneModule

def configPath : Path := ⟨"actiongen.toml"⟩

def configText (nspace : String) : String :=
  "modules = [\"M\"]\nnamespace = '" ++ nspace ++ "'\n"

def manifestText : String :=
  "[[modules]]\nname = \"M\"\ntype = \"T\"\n\n" ++
    "[[types]]\nname = \"T\"\nmethods = [\x7b name = \"seeText\" \x7d]\n"

def files : FileSystem where
  entries := [(["actiongen.toml"], .file (configText "A").toUTF8),
    (["modules.toml"], .file manifestText.toUTF8)]
  current := []

def inNamespace (nspace : String) : Project where
  config := { modules := ["M"], nspace }
  manifest := {
    modules := [{ name := "M", typeName := "T" }]
    types := .ofList [{ name := "T", methods := [{ name := "seeText" }] }] }
  base := ⟨""⟩

theorem project_files : files.project configPath = .ok (inNamespace "A") := by
  decide +kernel

theorem load_files : runOn (Project.load configPath) files = (.ok (inNamespace "A"), files) := by
  rw [runOn_load, project_files]

end OneModule

end TestActor
