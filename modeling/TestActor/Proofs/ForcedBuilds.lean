import TestActor.Proofs.CheckAndBuild
import TestActor.Proofs.OverwrittenFiles

/-!
# Forced builds

A forced build writes the generated file whatever its stamp is. It reads the stamp all the same,
because the outcome tells it, and for that the old file has to be a text. So what a forced build
writes, and how it fails, depends on the old bytes in one way only: when they are no text, the build
ends before anything is written.

## Main definitions

* `IsText`: bytes that are a text.
* `FileSystem.IsOutput`: the generated file of a configuration is at a place.
* `BuildsAlike`: two builds that do the same.

## Main statements

* `build_unreadable_iff`: a build fails at the old file exactly when that is no text.
* `forced_builds_alike`: forced builds over two old files do the same if both files are texts or
  neither is, and only then if the old file is reached.
-/

namespace TestActor

variable {fs fs' : FileSystem} {config path : Path} {place current : Place}
  {old new content : ByteArray} {project : Project} {generator : Generator} {force : Bool}

/-! ## The old file -/

/-- The bytes of a text. -/
def IsText (content : ByteArray) : Prop :=
  ∃ text, String.fromUTF8? content = some text

theorem FileSystem.text_of_isText {text : String} (hread : fs.read path = .ok content)
    (htext : String.fromUTF8? content = some text) : fs.text path = .ok text := by
  unfold FileSystem.text
  rw [hread]
  simp only [bind, Except.bind, htext]

theorem FileSystem.text_of_not_isText (hread : fs.read path = .ok content)
    (htext : ¬ IsText content) : fs.text path = .error .notText := by
  have hnone : String.fromUTF8? content = none :=
    Option.eq_none_iff_forall_ne_some.mpr fun text h => htext ⟨text, h⟩
  unfold FileSystem.text
  rw [hread]
  simp only [bind, Except.bind, hnone]

/-- The stamp of a file that is there, if there is a text in it. -/
theorem FileSystem.exists_stamp_iff (hread : fs.read path = .ok content) :
    (∃ stored, fs.stamp path = .ok stored) ↔ IsText content := by
  unfold stamp
  rw [if_pos (isPresent_of_read hread)]
  constructor
  · rintro ⟨stored, h⟩
    by_contra htext
    rw [text_of_not_isText hread htext] at h
    cases h
  · rintro ⟨text, htext⟩
    rw [text_of_isText hread htext]
    exact ⟨_, rfl⟩

theorem FileSystem.stamp_of_not_isText (hread : fs.read path = .ok content)
    (htext : ¬ IsText content) : fs.stamp path = .error (.unreadable path .notText) := by
  unfold stamp
  rw [if_pos (isPresent_of_read hread), text_of_not_isText hread htext]
  rfl

/-- A file that is present at the place of its path is read. -/
theorem FileSystem.read_of_isPresent (hfile : fs.get? (fs.denoted path) = some (.file content))
    (hpresent : fs.isPresent path = true) : fs.read path = .ok content := by
  unfold isPresent at? at hpresent
  cases hfollow : fs.follow path with
  | error failure =>
    rw [hfollow] at hpresent
    cases hpresent
  | ok found =>
    rw [eq_denoted_of_follow hfollow] at hfollow
    exact read_eq_ok_iff.mpr ⟨_, hfollow, hfile⟩

/-- **A build fails at the old file exactly when that is no text**, forced or not. -/
theorem build_unreadable_iff (hproject : fs.project config = .ok project)
    (hgenerator : project.generator = .ok generator)
    (hread : fs.read project.outputPath = .ok content) :
    (runOn (build config force) fs).1 = .error (.unreadable project.outputPath .notText) ↔
      ¬ IsText content := by
  constructor
  · intro hfail htext
    obtain ⟨stored, hstored⟩ := (FileSystem.exists_stamp_iff hread).mpr htext
    have hsurvey := FileSystem.survey_eq_ok_iff.mpr
      ⟨project, generator, stored, hproject, hgenerator, hstored, rfl⟩
    -- behind the survey a build fails for want of a document or when that is not written
    obtain ⟨left, hbuild⟩ : ∃ left, runOn (build config force) fs
        = (.error (.unreadable project.outputPath .notText), left) := ⟨_, Prod.ext hfail rfl⟩
    cases builds_of_runOn hbuild with
    | unsurveyed survey => cases survey.symm.trans hsurvey
  · intro htext
    have hsurvey : fs.survey config = .error (.unreadable project.outputPath .notText) := by
      unfold FileSystem.survey
      simp only [hproject, hgenerator, FileSystem.stamp_of_not_isText hread htext, bind,
        Except.bind]
    rw [runOn_build_of_survey_error hsurvey]

/-! ## Surveys over other bytes -/

/-- The output path of the configuration leads to the place if anywhere, and the paths of the
configuration and of the manifest do not. -/
structure FileSystem.IsOutput (fs : FileSystem) (config : Path) (place : Place) : Prop where
  config_ne : fs.denoted config ≠ place
  manifest_ne : ∀ found, fs.config config = .ok found →
    fs.denoted (found.manifestPath (config.parent.getD ⟨""⟩)) ≠ place
  output : ∀ found, fs.config config = .ok found →
    fs.denoted (found.outputPath (config.parent.getD ⟨""⟩)) = place

theorem FileSystem.IsOutput.denoted_outputPath (houtput : fs.IsOutput config place)
    (hproject : fs.project config = .ok project) : fs.denoted project.outputPath = place := by
  obtain ⟨hconfig, hbase, -⟩ := project_eq_ok_iff.mp hproject
  have hplace := houtput.output project.config hconfig
  rw [← hbase] at hplace
  exact hplace

/-- Two surveys that fail alike, or differ at most in what they say of the generated file. -/
inductive SurveysAlike : Except ProjectError Survey → Except ProjectError Survey → Prop
  | failed (e : ProjectError) : SurveysAlike (.error e) (.error e)
  | found (generator : Generator) (path : Path) (freshness freshness' : Freshness) :
      SurveysAlike (.ok ⟨generator, path, freshness⟩) (.ok ⟨generator, path, freshness'⟩)

namespace FileSystem.DiffersAt

variable (h : DiffersAt place current fs fs') (houtput : fs.IsOutput config place)

include h houtput

/-- **The same project is loaded.** -/
theorem project_eq : fs'.project config = fs.project config := by
  have hconfig : fs'.config config = fs.config config := by
    unfold FileSystem.config
    rw [h.text houtput.config_ne]
  unfold FileSystem.project
  rw [hconfig]
  cases hfound : fs.config config with
  | error e => rfl
  | ok found =>
    have hmanifest : fs'.manifest (found.manifestPath (config.parent.getD ⟨""⟩))
        = fs.manifest (found.manifestPath (config.parent.getD ⟨""⟩)) := by
      unfold FileSystem.manifest
      rw [h.text (houtput.manifest_ne found hfound)]
    simp only [bind, Except.bind, hmanifest]

variable (hold : fs.get? place = some (.file old)) (hnew : fs'.get? place = some (.file new))

include hold hnew

/-- A file that is present at the output path is read in both. -/
theorem reads (hproject : fs.project config = .ok project)
    (hpresent : fs.isPresent project.outputPath = true) :
    fs.read project.outputPath = .ok old ∧ fs'.read project.outputPath = .ok new := by
  have hplace := houtput.denoted_outputPath hproject
  have hplace' := (h.denoted project.outputPath).trans hplace
  exact ⟨read_of_isPresent (hplace ▸ hold) hpresent,
    read_of_isPresent (hplace' ▸ hnew) ((h.isPresent project.outputPath).trans hpresent)⟩

/-- **Surveys over two texts, or over two files that are none, are alike.** -/
theorem surveysAlike (hsame : IsText old ↔ IsText new) :
    SurveysAlike (fs.survey config) (fs'.survey config) := by
  unfold FileSystem.survey
  rw [h.project_eq houtput]
  cases hproject : fs.project config with
  | error e => exact .failed e
  | ok project =>
    cases hgenerator : project.generator with
    | error e =>
      simp only [bind, Except.bind, hgenerator]
      exact .failed e
    | ok generator =>
      simp only [bind, Except.bind, hgenerator]
      by_cases hpresent : fs.isPresent project.outputPath = true
      · obtain ⟨hread, hread'⟩ := h.reads houtput hold hnew hproject hpresent
        by_cases htext : IsText old
        · obtain ⟨stored, hstored⟩ := (exists_stamp_iff hread).mpr htext
          obtain ⟨stored', hstored'⟩ := (exists_stamp_iff hread').mpr (hsame.mp htext)
          rw [hstored, hstored']
          exact .found generator _ _ _
        · rw [stamp_of_not_isText hread htext,
            stamp_of_not_isText hread' fun htext' => htext (hsame.mpr htext')]
          exact .failed _
      · have habsent : ¬ fs'.isPresent project.outputPath = true := by
          rw [h.isPresent]
          exact hpresent
        unfold stamp
        rw [if_neg hpresent, if_neg habsent]
        exact .found generator _ _ _

end FileSystem.DiffersAt

/-! ## Builds over other bytes -/

/-- Two builds that do the same. Both succeed, with the same bytes in the generated file, the same
files elsewhere, and outcomes that differ at most in how fresh the old file was; or both fail with
the same error. -/
inductive BuildsAlike : Except ProjectError Outcome × FileSystem →
    Except ProjectError Outcome × FileSystem → Prop
  | succeeded {outcome : Outcome} {freshness : Freshness} {left left' : FileSystem}
      {content : ByteArray} (hread : left.read outcome.outputPath = .ok content)
      (hread' : left'.read outcome.outputPath = .ok content)
      (hsame : ∀ place, left'.get? place = left.get? place) :
      BuildsAlike (.ok outcome, left) (.ok { outcome with freshness }, left')
  | failed (e : ProjectError) (left left' : FileSystem) :
      BuildsAlike (.error e, left) (.error e, left')

theorem BuildsAlike.error_iff {first second : Except ProjectError Outcome × FileSystem}
    (h : BuildsAlike first second) (e : ProjectError) :
    first.1 = .error e ↔ second.1 = .error e := by
  cases h with
  | succeeded => exact iff_of_false (fun he => by cases he) (fun he => by cases he)
  | failed => exact Iff.rfl

section Forced

variable {s : Survey} {document : Document}

/-- What a forced build does behind a survey. -/
theorem runOn_build_forced (hsurvey : fs.survey config = .ok s) :
    runOn (build config true) fs = match s.generator.produce with
      | .error e => (.error (.document e), fs)
      | .ok document =>
        match runOn (Disk.replaceFile s.outputPath
            (Artifact.withFinalBreak document.source)) fs with
        | (.error failure, left) => (.error (.replace failure), left)
        | (.ok _, left) => (.ok (s.written document), left) := by
  unfold build
  rw [runOn_bind, runOn_survey, hsurvey]
  have hforced : ¬ (s.freshness = .upToDate ∧ (!true) = true) := by simp
  simp only [if_neg hforced]
  rw [runOn_bind, runOn_liftExcept]
  cases s.generator.produce with
  | error e => rfl
  | ok document =>
    simp only [Except.mapError]
    rw [runOn_bind, runOn_save]
    cases runOn (Disk.replaceFile s.outputPath (Artifact.withFinalBreak document.source)) fs with
    | mk result left => cases result <;> rfl

/-- Behind surveys that are alike, the builds are. -/
theorem FileSystem.DiffersAt.buildsAlike (h : DiffersAt place current fs fs')
    {path : Path} {freshness freshness' : Freshness} (hplace : fs.denoted path = place)
    (hsurvey : fs.survey config = .ok ⟨generator, path, freshness⟩)
    (hsurvey' : fs'.survey config = .ok ⟨generator, path, freshness'⟩) :
    BuildsAlike (runOn (build config true) fs) (runOn (build config true) fs') := by
  rw [runOn_build_forced hsurvey, runOn_build_forced hsurvey']
  cases generator.produce with
  | error e => exact .failed _ _ _
  | ok document =>
    have hbeside : ∀ other : FileSystem, other.current = current →
        other.denoted (Disk.temporary path) ≠ place := by
      intro other hother
      rw [← hplace, ← denoted_congr (hother.trans h.current.symm) path]
      exact denoted_temporary_ne other path
    cases hrun : runOn (Disk.replaceFile path (Artifact.withFinalBreak document.source)) fs with
    | mk result left =>
      cases hrun' : runOn (Disk.replaceFile path (Artifact.withFinalBreak document.source)) fs' with
      | mk result' left' =>
        -- the document is written by a program that is blind to the old bytes
        have hblind :=
          (blindTo_replaceFile (Artifact.withFinalBreak document.source) hbeside).runOn h
        rw [hrun, hrun'] at hblind
        obtain ⟨rfl, hleft⟩ := hblind
        simp only [hrun, hrun']
        cases result' with
        | error failure => exact .failed _ _ _
        | ok _ =>
          refine .succeeded (read_of_replaceFile hrun) (read_of_replaceFile hrun') fun other => ?_
          by_cases hother : other = place
          · have hfile := get?_of_replaceFile hrun
            have hfile' := get?_of_replaceFile hrun'
            rw [h.denoted] at hfile'
            rw [hother, ← hplace, hfile, hfile']
          · exact hleft.edited.elsewhere other hother

end Forced

section OldFiles

variable (h : FileSystem.DiffersAt place current fs fs') (houtput : fs.IsOutput config place)
  (hold : fs.get? place = some (.file old)) (hnew : fs'.get? place = some (.file new))

include h houtput hold hnew

/-- **Forced builds over two texts, or over two files that are none, do the same.** -/
theorem FileSystem.DiffersAt.buildsAlike_of_isText (hsame : IsText old ↔ IsText new) :
    BuildsAlike (runOn (build config true) fs) (runOn (build config true) fs') := by
  have hsurveys := h.surveysAlike houtput hold hnew hsame
  generalize hsurvey : fs.survey config = found at hsurveys
  generalize hsurvey' : fs'.survey config = found' at hsurveys
  cases hsurveys with
  | failed e =>
    rw [runOn_build_of_survey_error hsurvey, runOn_build_of_survey_error hsurvey']
    exact .failed e fs fs'
  | found generator path freshness freshness' =>
    obtain ⟨project, _, _, hproject, -, -, hs⟩ := survey_eq_ok_iff.mp hsurvey
    have hpath : path = project.outputPath := congrArg Survey.outputPath hs
    have hplace : fs.denoted path = place := by
      rw [hpath]
      exact houtput.denoted_outputPath hproject
    exact h.buildsAlike hplace hsurvey hsurvey'

/-- **Builds that do the same have old files that are both texts, or neither is**, when the old file
is read: a build fails at an old file that is no text, and another build fails at another point. -/
theorem FileSystem.DiffersAt.isText_iff_of_buildsAlike (hproject : fs.project config = .ok project)
    (hgenerator : project.generator = .ok generator)
    (hread : fs.read project.outputPath = .ok old)
    (hbuilds : BuildsAlike (runOn (build config true) fs) (runOn (build config true) fs')) :
    IsText old ↔ IsText new := by
  obtain ⟨-, hread'⟩ := h.reads houtput hold hnew hproject (isPresent_of_read hread)
  have hfails : (runOn (build config true) fs).1
      = .error (.unreadable project.outputPath .notText) ↔ ¬ IsText old :=
    build_unreadable_iff hproject hgenerator hread
  have hfails' : (runOn (build config true) fs').1
      = .error (.unreadable project.outputPath .notText) ↔ ¬ IsText new :=
    build_unreadable_iff ((h.project_eq houtput).trans hproject) hgenerator hread'
  exact not_iff_not.mp (hfails.symm.trans ((hbuilds.error_iff _).trans hfails'))

end OldFiles

/-- **What a forced build depends on.** Over two old files of which both are texts, or neither is,
it does the same: it succeeds and writes the same bytes, or it fails with the same error. When the
project can be loaded, its generator prepared and the old file read, this is the only case in which
it does, as one build fails at an old file that is no text and the other does not. -/
theorem forced_builds_alike (hedit : FileSystem.EditedAt place fs fs')
    (hold : fs.get? place = some (.file old)) (hnew : fs'.get? place = some (.file new))
    (houtput : fs.IsOutput config place) :
    ((IsText old ↔ IsText new) →
      BuildsAlike (runOn (build config true) fs) (runOn (build config true) fs')) ∧
    ∀ project generator, runOn (Project.load config) fs = (.ok project, fs) →
      project.generator = .ok generator → fs.read project.outputPath = .ok old →
        (BuildsAlike (runOn (build config true) fs) (runOn (build config true) fs') ↔
          (IsText old ↔ IsText new)) := by
  have h : FileSystem.DiffersAt place fs.current fs fs' :=
    ⟨rfl, hedit, ⟨old, hold⟩, ⟨new, hnew⟩⟩
  have halike := h.buildsAlike_of_isText houtput hold hnew
  refine ⟨halike, fun project generator hload hgenerator hread => ⟨fun hbuilds => ?_, halike⟩⟩
  exact h.isText_iff_of_buildsAlike houtput hold hnew (project_of_load hload) hgenerator hread
    hbuilds

namespace OneModule

/-! ## The project with one module over old files -/

def outputPlace : Place := ["AcceptanceActions.php", "_generated"]

/-- The project with a generated file of the given bytes. -/
def withOld (content : ByteArray) : FileSystem :=
  (files.put ["_generated"] .directory).put outputPlace (.file content)

theorem kept_withOld (content : ByteArray) :
    FileSystem.Kept [["_generated"], outputPlace] files (withOld content) := by
  have hdirectory : FileSystem.Kept [["_generated"]] files (files.put ["_generated"] .directory) :=
    FileSystem.kept_put .directory (by decide +kernel)
  have hfile : FileSystem.Kept [outputPlace] (files.put ["_generated"] .directory)
      (withOld content) := FileSystem.kept_put (.file content) (by decide +kernel)
  exact (hdirectory.mono (by simp)).trans (hfile.mono (by simp))

theorem project_withOld (content : ByteArray) :
    (withOld content).project configPath = .ok (inNamespace "A") :=
  (kept_withOld content).project (by decide +kernel) (by decide +kernel) project_files

theorem get?_withOld (content : ByteArray) :
    (withOld content).get? outputPlace = some (.file content) :=
  FileSystem.get?_put_self _ _ (by decide)

theorem editedAt_withOld (old new : ByteArray) :
    FileSystem.EditedAt outputPlace (withOld old) (withOld new) where
  current := rfl
  elsewhere other hother := by
    unfold withOld
    rw [FileSystem.get?_put_of_ne _ _ hother, FileSystem.get?_put_of_ne _ _ hother]

theorem isOutput_withOld (content : ByteArray) :
    (withOld content).IsOutput configPath outputPlace := by
  have hdenoted : ∀ path, (withOld content).denoted path = files.denoted path :=
    fun path => (kept_withOld content).denoted path
  obtain ⟨hconfig, -, -⟩ := FileSystem.project_eq_ok_iff.mp (project_withOld content)
  refine ⟨?_, fun found hfound => ?_, fun found hfound => ?_⟩
  · rw [hdenoted]
    decide +kernel
  · obtain rfl := Except.ok.inj (hconfig.symm.trans hfound)
    rw [hdenoted]
    decide +kernel
  · obtain rfl := Except.ok.inj (hconfig.symm.trans hfound)
    rw [hdenoted]
    decide +kernel

theorem exists_forced_build :
    ∃ outcome left, runOn (build configPath true) (withOld "old".toUTF8) = (.ok outcome, left) ∧
      outcome.written = true :=
  exists_outcome (by decide +kernel)

/-- Over an old text and over an empty file the same bytes are written. -/
theorem forced_builds_over_texts :
    ∃ outcome outcome' left left' content,
      runOn (build configPath true) (withOld "old".toUTF8) = (.ok outcome, left) ∧
      runOn (build configPath true) (withOld "".toUTF8) = (.ok outcome', left') ∧
      left.read outcome.outputPath = .ok content ∧ left'.read outcome.outputPath = .ok content := by
  obtain ⟨outcome, left, hbuild, -⟩ := exists_forced_build
  have htext : ∀ text : String, IsText text.toUTF8 := fun text => ⟨text, fromUTF8?_toUTF8 text⟩
  have halike := (forced_builds_alike (editedAt_withOld "old".toUTF8 "".toUTF8)
    (get?_withOld _) (get?_withOld _) (isOutput_withOld _)).1 (iff_of_true (htext _) (htext _))
  rw [hbuild] at halike
  generalize runOn (build configPath true) (withOld "".toUTF8) = other at halike ⊢
  cases halike with
  | succeeded hread hread' hsame => exact ⟨outcome, _, left, _, _, hbuild, rfl, hread, hread'⟩

/-- The old file is read from the output path. -/
theorem read_withOld (content : ByteArray) :
    (withOld content).read (inNamespace "A").outputPath = .ok content := by
  have h : FileSystem.DiffersAt outputPlace [] (withOld "old".toUTF8) (withOld content) :=
    ⟨rfl, editedAt_withOld _ _, ⟨_, get?_withOld _⟩, ⟨_, get?_withOld _⟩⟩
  refine FileSystem.read_of_isPresent ?_ ?_
  · rw [(isOutput_withOld content).denoted_outputPath (project_withOld content)]
    exact get?_withOld content
  · rw [h.isPresent]
    decide +kernel

/-- A byte that is no text makes a forced build fail that would have replaced it. -/
theorem forced_build_over_no_text :
    ∃ outcome left left',
      runOn (Project.load configPath) (withOld "old".toUTF8)
        = (.ok (inNamespace "A"), withOld "old".toUTF8) ∧
      (inNamespace "A").IsApart (withOld "old".toUTF8) configPath ∧
      FileSystem.EditedAt ((withOld "old".toUTF8).denoted (inNamespace "A").outputPath)
        (withOld "old".toUTF8) (withOld ⟨#[0xff]⟩) ∧
      (withOld "old".toUTF8).read (inNamespace "A").outputPath = .ok "old".toUTF8 ∧
      (withOld ⟨#[0xff]⟩).read (inNamespace "A").outputPath = .ok ⟨#[0xff]⟩ ∧
      runOn (build configPath true) (withOld "old".toUTF8) = (.ok outcome, left) ∧
      runOn (build configPath true) (withOld ⟨#[0xff]⟩)
        = (.error (.unreadable (inNamespace "A").outputPath .notText), left') := by
  obtain ⟨outcome, left, hbuild, -⟩ := exists_forced_build
  have hplace := (isOutput_withOld "old".toUTF8).denoted_outputPath (project_withOld _)
  have hfails : (runOn (build configPath true) (withOld ⟨#[0xff]⟩)).1.map (·.written)
      = .error (.unreadable (inNamespace "A").outputPath .notText) := by
    decide +kernel
  refine ⟨outcome, left, _, ?_, isApart_files.kept (kept_withOld _), ?_, read_withOld _,
    read_withOld _, hbuild, Prod.ext (map_eq_error_iff.mp hfails) rfl⟩
  · rw [runOn_load, project_withOld]
  · rw [hplace]
    exact editedAt_withOld _ _

end OneModule

end TestActor
