import TestActor.Proofs.Rebuild

/-!
# Checking and building

A check and a build begin with the same survey. The check ends there; the build goes on when the
generated file is stale or the build is forced, and there are three ways on: no document can be
produced, the document cannot be written, or it is written. Only in the last two of them is anything
changed.

## Main definition

* `Builds`: the ways in which a build may end.

## Main statements

* `builds_runOn`: a build ends in one of these ways.
* `build_agrees_with_check`: what a check says about the build that follows it.
-/

namespace TestActor

variable {fs fs' : FileSystem} {config : Path} {force : Bool}

theorem runOn_save (path : Path) (source : String) :
    runOn (Artifact.save path source) fs
      = ((runOn (Disk.replaceFile path (Artifact.withFinalBreak source)) fs).1.mapError .replace,
        (runOn (Disk.replaceFile path (Artifact.withFinalBreak source)) fs).2) := rfl

/-! ## The ways in which a build may end -/

/-- How a build ends, and the file system that it leaves. -/
inductive Builds (fs : FileSystem) (config : Path) (force : Bool) :
    Except ProjectError Outcome → FileSystem → Prop
  /-- There is no survey. -/
  | unsurveyed {e : ProjectError} (survey : fs.survey config = .error e) :
      Builds fs config force (.error e) fs
  /-- The generated file is up to date, and the build is not forced. -/
  | skipped {s : Survey} (survey : fs.survey config = .ok s)
      (fresh : s.freshness = .upToDate ∧ force = false) :
      Builds fs config force (.ok s.unwritten) fs
  /-- There is no document. -/
  | unproduced {s : Survey} {e : GenerateError} (survey : fs.survey config = .ok s)
      (due : ¬ (s.freshness = .upToDate ∧ force = false))
      (produced : s.generator.produce = .error e) :
      Builds fs config force (.error (.document e)) fs
  /-- The document is not written. -/
  | unreplaced {s : Survey} {document : Document} {failure : Disk.ReplaceError}
      {left : FileSystem} (survey : fs.survey config = .ok s)
      (due : ¬ (s.freshness = .upToDate ∧ force = false))
      (produced : s.generator.produce = .ok document)
      (replaced : runOn (Disk.replaceFile s.outputPath (Artifact.withFinalBreak document.source)) fs
        = (.error failure, left)) :
      Builds fs config force (.error (.replace failure)) left
  /-- The document is written. -/
  | replaced {s : Survey} {document : Document} {left : FileSystem}
      (survey : fs.survey config = .ok s)
      (due : ¬ (s.freshness = .upToDate ∧ force = false))
      (produced : s.generator.produce = .ok document)
      (replaced : runOn (Disk.replaceFile s.outputPath (Artifact.withFinalBreak document.source)) fs
        = (.ok (), left)) :
      Builds fs config force (.ok (s.written document)) left

/-- **A build ends in one of these ways.** -/
theorem builds_runOn (fs : FileSystem) (config : Path) (force : Bool) :
    Builds fs config force (runOn (build config force) fs).1 (runOn (build config force) fs).2 := by
  unfold build
  rw [runOn_bind, runOn_survey]
  cases hsurvey : fs.survey config with
  | error e => exact .unsurveyed hsurvey
  | ok s =>
    -- the program asks for `!force`, the ways say what that means
    by_cases hfresh : s.freshness = .upToDate ∧ force = false
    · simp only [if_pos (show s.freshness = .upToDate ∧ (!force) = true by simpa using hfresh)]
      exact .skipped hsurvey hfresh
    · simp only [if_neg (show ¬ (s.freshness = .upToDate ∧ (!force) = true) by simpa using hfresh)]
      rw [runOn_bind, runOn_liftExcept]
      cases hproduce : s.generator.produce with
      | error e => exact .unproduced hsurvey hfresh hproduce
      | ok document =>
        simp only [Except.mapError]
        rw [runOn_bind, runOn_save]
        cases hreplace : runOn (Disk.replaceFile s.outputPath
            (Artifact.withFinalBreak document.source)) fs with
        | mk result left =>
          cases result with
          | error failure => exact .unreplaced hsurvey hfresh hproduce hreplace
          | ok _ => exact .replaced hsurvey hfresh hproduce hreplace

theorem builds_of_runOn {result : Except ProjectError Outcome}
    (h : runOn (build config force) fs = (result, fs')) : Builds fs config force result fs' := by
  have hbuilds := builds_runOn fs config force
  rw [h] at hbuilds
  exact hbuilds

/-- A build fails as its survey does. -/
theorem runOn_build_of_survey_error {e : ProjectError} (h : fs.survey config = .error e) :
    runOn (build config force) fs = (.error e, fs) := by
  unfold build
  rw [runOn_bind, runOn_survey, h]

/-! ## Commands -/

/-- **Only a build changes anything.** -/
theorem runOn_perform_of_ne_build {command : CommandLine.Command} (h : command ≠ .build) :
    (runOn (CommandLine.perform command config force) fs).2 = fs := by
  cases command with
  | build => exact absurd rfl h
  | check => exact congrArg Prod.snd (runOn_bind_of_reads (runOn_check config) fun _ => runOn_pure _)
  | fingerprint =>
    exact congrArg Prod.snd (runOn_bind_of_reads (runOn_loadGenerator config) fun _ => runOn_pure _)
  | actions =>
    exact congrArg Prod.snd (runOn_bind_of_reads (runOn_loadGenerator config) fun _ => runOn_pure _)

/-! ## What a check says about a build -/

theorem survey_of_check {result : Except ProjectError Outcome}
    (h : (runOn (check config) fs).1 = result) : Survey.unwritten <$> fs.survey config = result := by
  rw [runOn_check] at h
  exact h

theorem Freshness.ne_upToDate_iff {freshness : Freshness} :
    freshness ≠ .upToDate ↔ ∃ stored, freshness = .stale stored := by
  cases freshness with
  | upToDate => simp
  | stale stored => simp

/-- **What a check says about the build that follows it.** When the check fails, the build fails with
the same error and changes nothing. Otherwise a build that succeeds finds what the check has found;
it writes when that was stale or the build is forced, and says so also by the number of methods;
what it writes is then read at the output path, with the fingerprint as its stamp, and when it
writes nothing it changes nothing. A build that fails behind a check that succeeds has no document
and changes nothing, or the document could not be written. The other commands never change
anything. -/
theorem build_agrees_with_check (fs : FileSystem) (config : Path) :
    (∀ e, (runOn (check config) fs).1 = .error e →
      ∀ force, runOn (build config force) fs = (.error e, fs)) ∧
    (∀ checked, (runOn (check config) fs).1 = .ok checked → ∀ force,
      (∀ outcome fs', runOn (build config force) fs = (.ok outcome, fs') →
        outcome.outputPath = checked.outputPath ∧ outcome.fingerprint = checked.fingerprint ∧
        outcome.freshness = checked.freshness ∧
        (force = false → (outcome.written = true ↔ ∃ stored, checked.freshness = .stale stored)) ∧
        (force = true → outcome.written = true) ∧
        (outcome.written = true ↔ outcome.methods.isSome = true) ∧
        (outcome.written = true → ∃ text,
          runOn (Disk.replaceFile outcome.outputPath text) fs = (.ok (), fs') ∧
            fs'.read outcome.outputPath = .ok text.toUTF8 ∧
            Stamp.ofContents? text = some outcome.fingerprint) ∧
        (outcome.written = false → fs' = fs)) ∧
      ∀ e fs', runOn (build config force) fs = (.error e, fs') →
        (∃ failure, e = .document failure) ∧ fs' = fs ∨ ∃ failure, e = .replace failure) ∧
    ∀ command force, command ≠ .build →
      (runOn (CommandLine.perform command config force) fs).2 = fs := by
  refine ⟨?_, ?_, fun command force h => runOn_perform_of_ne_build h⟩
  · intro e hcheck force
    exact runOn_build_of_survey_error (map_eq_error_iff.mp (survey_of_check hcheck))
  · intro checked hcheck force
    obtain ⟨s, hs, rfl⟩ := map_eq_ok_iff.mp (survey_of_check hcheck)
    refine ⟨fun outcome fs' hbuild => ?_, fun e fs' hbuild => ?_⟩
    · cases builds_of_runOn hbuild with
      | skipped survey fresh =>
        obtain rfl := Except.ok.inj (hs.symm.trans survey)
        obtain ⟨hfresh, rfl⟩ := fresh
        have hnever : ¬ ∃ stored, s.unwritten.freshness = .stale stored := by
          rw [← Freshness.ne_upToDate_iff]
          exact not_not_intro hfresh
        exact ⟨rfl, rfl, rfl, fun _ => iff_of_false Bool.false_ne_true hnever,
          fun hforce => hforce, iff_of_false Bool.false_ne_true Bool.false_ne_true,
          fun hwritten => absurd hwritten Bool.false_ne_true, fun _ => rfl⟩
      | replaced survey due produced replaced =>
        obtain rfl := Except.ok.inj (hs.symm.trans survey)
        have hstale : force = false → ∃ stored, s.unwritten.freshness = .stale stored :=
          fun hforce => Freshness.ne_upToDate_iff.mp fun hfresh => due ⟨hfresh, hforce⟩
        exact ⟨rfl, Generator.fingerprint_of_produce produced, rfl,
          fun hforce => iff_of_true rfl (hstale hforce), fun _ => rfl, iff_of_true rfl rfl,
          fun _ => ⟨_, replaced, FileSystem.read_of_replaceFile replaced,
            Generator.stamp_of_produce produced⟩,
          fun hunwritten => absurd hunwritten.symm Bool.false_ne_true⟩
    · cases builds_of_runOn hbuild with
      | unsurveyed survey => cases hs.symm.trans survey
      | unproduced survey due produced => exact .inl ⟨⟨_, rfl⟩, rfl⟩
      | unreplaced survey due produced replaced => exact .inr ⟨_, rfl⟩

/-- An unforced build behind a check that found no generated file writes it. -/
theorem OneModule.build_after_check :
    ∃ checked outcome built,
      runOn (check configPath) files = (.ok checked, files) ∧
      checked.freshness = .stale none ∧
      runOn (build configPath false) files = (.ok outcome, built) ∧
      outcome.written = true ∧ outcome.freshness = checked.freshness ∧
      outcome.fingerprint = checked.fingerprint := by
  obtain ⟨checked, hcheck, hfresh⟩ : ∃ checked, runOn (check configPath) files
      = (.ok checked, files) ∧ checked.freshness = .stale none := by
    have hfresh : ((files.survey configPath).map (·.freshness)).toOption = some (.stale none) := by
      decide +kernel
    rw [runOn_check]
    cases hsurvey : files.survey configPath with
    | error e =>
      rw [hsurvey] at hfresh
      cases hfresh
    | ok s =>
      rw [hsurvey] at hfresh
      exact ⟨s.unwritten, rfl, Option.some.inj hfresh⟩
  obtain ⟨outcome, built, hbuild, -⟩ := exists_build
  obtain ⟨-, hagree, -⟩ := build_agrees_with_check files configPath
  obtain ⟨-, hfingerprint, hfreshness, hwrites, -⟩ :=
    (hagree checked (by rw [hcheck]) false).1 outcome built hbuild
  exact ⟨checked, outcome, built, hcheck, hfresh, hbuild, (hwrites rfl).mpr ⟨none, hfresh⟩,
    hfreshness, hfingerprint⟩

end TestActor
