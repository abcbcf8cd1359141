import TestActor.Proofs.ProjectLoading
import TestActor.Proofs.StampReading

/-!
# After a build

A build that succeeds leaves the generated file up to date, whether it wrote the file or not. What
was read before is read again, as long as the generated file and the one beside it are none of the
two files that a project is loaded from. So the same fingerprint comes out as before, and it is the
one on the generated file.

## Main statements

* `replaced_of_build`: what a build that writes has replaced.
* `survey_of_build`: what a survey finds after a build.
* `upToDate_after_build`: all commands agree that the generated file is up to date.
-/

namespace TestActor

variable {fs fs' : FileSystem} {config : Path} {force : Bool} {outcome : Outcome}
  {project : Project}

/-! ## Stamps of written files -/

theorem fromUTF8?_toUTF8 (text : String) : String.fromUTF8? text.toUTF8 = some text :=
  dif_pos text.isValidUTF8

namespace FileSystem

variable {path : Path} {text : String}

theorem text_of_read (h : fs.read path = .ok text.toUTF8) : fs.text path = .ok text := by
  refine bind_eq_ok_iff.mpr ⟨text.toUTF8, h, ?_⟩
  rw [fromUTF8?_toUTF8]

theorem isPresent_of_read {content : ByteArray} (h : fs.read path = .ok content) :
    fs.isPresent path = true := by
  obtain ⟨place, hfollow, hfile⟩ := read_eq_ok_iff.mp h
  unfold isPresent at?
  rw [hfollow]
  show (fs.get? place).isSome = true
  rw [hfile]
  rfl

theorem stamp_of_read (h : fs.read path = .ok text.toUTF8) :
    fs.stamp path = .ok (Stamp.ofContents? text) := by
  unfold stamp
  rw [if_pos (isPresent_of_read h), text_of_read h]
  rfl

end FileSystem

/-! ## Builds that write -/

/-- A build that writes replaces the generated file by the document. -/
theorem replaced_of_build (hproject : fs.project config = .ok project)
    (hbuild : runOn (build config force) fs = (.ok outcome, fs'))
    (hwritten : outcome.written = true) :
    ∃ generator document, project.generator = .ok generator ∧
      generator.produce = .ok document ∧ outcome.outputPath = project.outputPath ∧
      outcome.methods = some document.methodCount ∧
      runOn (Disk.replaceFile project.outputPath (Artifact.withFinalBreak document.source)) fs
        = (.ok (), fs') := by
  obtain ⟨s, hsurvey, hend⟩ := runOn_build_eq_ok_iff.mp hbuild
  obtain ⟨generator, stored, hgenerator, -, rfl⟩ :=
    FileSystem.exists_of_survey hproject hsurvey
  rcases hend with ⟨-, rfl, -⟩ | ⟨-, document, hproduce, rfl, hsave⟩
  · cases hwritten
  · exact ⟨generator, document, hgenerator, hproduce, rfl, rfl, runOn_save_eq_ok_iff.mp hsave⟩

theorem written_of_force (h : runOn (build config true) fs = (.ok outcome, fs')) :
    outcome.written = true := by
  obtain ⟨s, -, ⟨⟨-, hforce⟩, -⟩ | ⟨-, document, -, rfl, -⟩⟩ := runOn_build_eq_ok_iff.mp h
  · cases hforce
  · rfl

/-- A build of which it is known that it has written something has an outcome. -/
theorem exists_outcome
    (h : ((runOn (build config force) fs).1.map (·.written)).toOption = some true) :
    ∃ outcome left, runOn (build config force) fs = (.ok outcome, left) ∧
      outcome.written = true := by
  generalize runOn (build config force) fs = r at h ⊢
  obtain ⟨result, left⟩ := r
  cases result with
  | error e => cases h
  | ok outcome => exact ⟨outcome, left, rfl, Option.some.inj h⟩

theorem OneModule.exists_build :
    ∃ outcome built, runOn (build configPath false) files = (.ok outcome, built) ∧
      outcome.written = true :=
  exists_outcome (by decide +kernel)

/-! ## Surveys after a build -/

/-- The generated file and the one beside it that is written first are neither the configuration nor
the manifest. Paths are compared by the places that they denote. -/
def Project.IsApart (project : Project) (fs : FileSystem) (config : Path) : Prop :=
  ∀ place ∈ fs.replaced project.outputPath,
    place ≠ fs.denoted config ∧ place ≠ fs.denoted project.manifestPath

theorem Project.IsApart.config_not_mem (h : project.IsApart fs config) :
    fs.denoted config ∉ fs.replaced project.outputPath :=
  fun hmem => (h _ hmem).1 rfl

theorem Project.IsApart.manifest_not_mem (h : project.IsApart fs config) :
    fs.denoted project.manifestPath ∉ fs.replaced project.outputPath :=
  fun hmem => (h _ hmem).2 rfl

theorem Project.IsApart.output_ne (h : project.IsApart fs config) :
    fs.denoted project.outputPath ≠ fs.denoted config :=
  (h _ (List.mem_cons_of_mem _ List.mem_cons_self)).1

theorem Project.IsApart.kept {touched : List Place} (h : project.IsApart fs config)
    (hkept : FileSystem.Kept touched fs fs') : project.IsApart fs' config := by
  unfold Project.IsApart FileSystem.replaced at *
  simp only [hkept.denoted]
  exact h

theorem OneModule.isApart_files : (inNamespace "A").IsApart files configPath := by
  unfold Project.IsApart
  decide +kernel

/-- **What is found after a build**: the project and its generator as before, and on the generated
file the fingerprint that the build gave. -/
theorem survey_of_build (hproject : fs.project config = .ok project)
    (hbuild : runOn (build config force) fs = (.ok outcome, fs'))
    (hapart : project.IsApart fs config) :
    ∃ generator, fs'.project config = .ok project ∧ project.generator = .ok generator ∧
      outcome.outputPath = project.outputPath ∧ outcome.fingerprint = generator.fingerprint ∧
      fs'.stamp project.outputPath = .ok (some generator.fingerprint) := by
  obtain ⟨s, hsurvey, hend⟩ := runOn_build_eq_ok_iff.mp hbuild
  obtain ⟨generator, stored, hgenerator, hstored, rfl⟩ :=
    FileSystem.exists_of_survey hproject hsurvey
  refine ⟨generator, ?_⟩
  rcases hend with ⟨⟨hfresh, -⟩, rfl, rfl⟩ | ⟨-, document, hproduce, rfl, hsave⟩
  · -- nothing was written, because the stamp was the fingerprint already
    have hcurrent := Freshness.of_eq_upToDate_iff.mp hfresh
    exact ⟨hproject, hgenerator, rfl, rfl, hcurrent ▸ hstored⟩
  · have hreplace := runOn_save_eq_ok_iff.mp hsave
    have hkept := FileSystem.kept_replaceFile hreplace
    have hagain := hkept.project hapart.config_not_mem hapart.manifest_not_mem hproject
    have hstamp := FileSystem.stamp_of_read (FileSystem.read_of_replaceFile hreplace)
    rw [Generator.stamp_of_produce hproduce, Generator.fingerprint_of_produce hproduce] at hstamp
    exact ⟨hagain, hgenerator, rfl, Generator.fingerprint_of_produce hproduce, hstamp⟩

/-- **After a build that succeeds everything is up to date**, also when the build wrote nothing: the
stamp of the generated file is the fingerprint that the build gave, the command for fingerprints
prints it, a check finds the file up to date, and another build leaves everything as it is. -/
theorem upToDate_after_build (hload : runOn (Project.load config) fs = (.ok project, fs))
    (hbuild : runOn (build config force) fs = (.ok outcome, fs'))
    (hapart : project.IsApart fs config) :
    runOn (Artifact.readStamp outcome.outputPath) fs' = (.ok (some outcome.fingerprint), fs') ∧
    (∀ force, runOn (CommandLine.perform .fingerprint config force) fs'
      = (.ok ⟨CommandLine.ExitCode.ok, outcome.fingerprint ++ "\n", ""⟩, fs')) ∧
    runOn (check config) fs'
      = (.ok ⟨outcome.outputPath, outcome.fingerprint, .upToDate, false, none⟩, fs') ∧
    runOn (build config false) fs'
      = (.ok ⟨outcome.outputPath, outcome.fingerprint, .upToDate, false, none⟩, fs') := by
  have hproject : fs.project config = .ok project := by
    rw [runOn_load] at hload
    exact (Prod.mk.inj hload).1
  obtain ⟨generator, hagain, hgenerator, hpath, hfingerprint, hstamp⟩ :=
    survey_of_build hproject hbuild hapart
  have hfresh : Freshness.of (some generator.fingerprint) generator.fingerprint = .upToDate :=
    Freshness.of_eq_upToDate_iff.mpr rfl
  have hsurvey : fs'.survey config = .ok ⟨generator, project.outputPath, .upToDate⟩ :=
    FileSystem.survey_eq_ok_iff.mpr
      ⟨project, generator, _, hagain, hgenerator, hstamp, by rw [hfresh]⟩
  rw [hpath, hfingerprint]
  refine ⟨?_, ?_, ?_, ?_⟩
  · rw [runOn_readStamp, hstamp]
  · intro force
    have hloaded : runOn (CommandLine.loadGenerator config) fs' = (.ok generator, fs') := by
      rw [runOn_loadGenerator, hagain]
      exact Prod.ext hgenerator rfl
    exact runOn_bind_of_ok hloaded
  · rw [runOn_check, hsurvey]
    rfl
  · exact runOn_build_eq_ok_iff.mpr ⟨_, hsurvey, .inl ⟨⟨rfl, rfl⟩, rfl, rfl⟩⟩

open OneModule in
/-- The first build of a project with one module writes the generated file, and the second one finds
it up to date. -/
theorem upToDate_after_first_build :
    runOn (Project.load configPath) files = (.ok (inNamespace "A"), files) ∧
    (inNamespace "A").IsApart files configPath ∧
    ∃ outcome built, runOn (build configPath false) files = (.ok outcome, built) ∧
      outcome.written = true ∧
      runOn (build configPath false) built
        = (.ok ⟨outcome.outputPath, outcome.fingerprint, .upToDate, false, none⟩, built) := by
  obtain ⟨outcome, built, hbuild, hwritten⟩ := exists_build
  exact ⟨load_files, isApart_files, outcome, built, hbuild, hwritten,
    (upToDate_after_build load_files hbuild isApart_files).2.2.2⟩

end TestActor
