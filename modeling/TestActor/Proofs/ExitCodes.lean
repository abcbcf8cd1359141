import TestActor.Proofs.Rebuild

/-!
# Exit codes

A command ends with the code for success, or with the code for failure when it meets an error; a
check that finds a stale file has a code of its own. A request for the version or for help runs no
command and ends with the code for success. Arguments that do not fit end the program before there
is a command, and with the same code as a stale file. So the code tells how a command has ended, but
it does not tell whether there was one.

## Main definitions

* `CommandLine.Succeeds`, `CommandLine.FindsStale`: the two ways in which a command is carried out.
* `CommandLine.AsksForText`: a request that runs no command.
* `CommandLine.ExitCodeTells`: the exit code tells how the program has ended.

## Main statements

* `CommandLine.ends_of_parse`: the code with which a request ends.
* `CommandLine.exitCodeTells_iff`: for which arguments the exit code tells how the program has
  ended.
* `CommandLine.exitCode_of_misspelled_check`: arguments for which it does not.
-/

namespace TestActor

namespace CommandLine

variable {fs : FileSystem} {arguments : List String} {request : Request} {code : Nat}

/-! ## Ways to end -/

/-- How the program ends with some arguments, and the files that it leaves. -/
def ending (arguments : List String) (fs : FileSystem) : Result × FileSystem :=
  ((run arguments : StateM FileSystem Result).run fs).run

/-- A command is carried out with success; a check succeeds when the generated file is up to date. -/
def Succeeds (fs : FileSystem) : Request → Prop
  | .run .build config force => ∃ outcome, (runOn (TestActor.build config force) fs).1 = .ok outcome
  | .run .check config _ =>
    ∃ outcome, (runOn (TestActor.check config) fs).1 = .ok outcome ∧ outcome.freshness = .upToDate
  | .run .fingerprint config _ => ∃ g, (runOn (loadGenerator config) fs).1 = .ok g
  | .run .actions config _ => ∃ g, (runOn (loadGenerator config) fs).1 = .ok g
  | .version => False
  | .help _ => False

/-- The request is for the version or for help; a text is shown, and no command runs. -/
def AsksForText : Request → Prop
  | .run .. => False
  | .version => True
  | .help _ => True

/-- A check is carried out and finds the generated file stale. -/
def FindsStale (fs : FileSystem) : Request → Prop
  | .run .check config _ => ∃ outcome stored,
      (runOn (TestActor.check config) fs).1 = .ok outcome ∧ outcome.freshness = .stale stored
  | _ => False

/-- The exit code tells how the program has ended: with a check that found the generated file stale,
with a command that was carried out with success, or otherwise. Beside the commands stand the
requests for a text, which end as a success does. -/
structure ExitCodeTells (fs : FileSystem) (arguments : List String) : Prop where
  stale : (ending arguments fs).1.code = 2 ↔
    ∃ request, parse arguments = some request ∧ FindsStale fs request
  ok : (ending arguments fs).1.code = 0 ↔
    ∃ request, parse arguments = some request ∧ (Succeeds fs request ∨ AsksForText request)
  invalid : (ending arguments fs).1.code = 1 ↔
    ¬ (∃ request, parse arguments = some request ∧ FindsStale fs request) ∧
      ¬ ∃ request, parse arguments = some request ∧ (Succeeds fs request ∨ AsksForText request)

/-- The code with which a request ends. -/
inductive Ends (fs : FileSystem) (request : Request) : Nat → Prop
  | shown (asks : AsksForText request) (fresh : ¬ FindsStale fs request) : Ends fs request 0
  | ok (succeeds : Succeeds fs request) (fresh : ¬ FindsStale fs request) : Ends fs request 0
  | invalid (runs : ¬ AsksForText request) (fails : ¬ Succeeds fs request)
      (fresh : ¬ FindsStale fs request) : Ends fs request 1
  | stale (runs : ¬ AsksForText request) (fails : ¬ Succeeds fs request)
      (stale : FindsStale fs request) : Ends fs request 2

theorem Ends.code_eq_iff (h : Ends fs request code) :
    (code = 2 ↔ FindsStale fs request) ∧
      (code = 0 ↔ Succeeds fs request ∨ AsksForText request) ∧
      (code = 1 ↔ ¬ FindsStale fs request ∧ ¬ (Succeeds fs request ∨ AsksForText request)) := by
  cases h with
  | shown asks fresh => simp [asks, fresh]
  | ok succeeds fresh => simp [succeeds, fresh]
  | invalid runs fails fresh => simp [runs, fails, fresh]
  | stale runs fails stale => simp [runs, fails, stale]

/-! ## Requests -/

/-- The end of a command that was carried out or not. -/
def endOf : Except ProjectError Result → Result
  | .ok result => result
  | .error error => ⟨ExitCode.invalid, "", error.message ++ "\n"⟩

theorem ending_of_parse_none (h : parse arguments = none) :
    ending arguments fs = (⟨ExitCode.usage, "", usageText none⟩, fs) := by
  unfold ending run
  rw [h]
  rfl

theorem ending_of_parse_run {command : Command} {config : Path} {force : Bool}
    (h : parse arguments = some (.run command config force)) :
    (ending arguments fs).1 = endOf (runOn (perform command config force) fs).1 := by
  unfold ending run
  rw [h]
  rcases hperform : runOn (perform command config force) fs with ⟨result, left⟩
  unfold runOn at hperform
  simp only [StateT.run_bind, Id.run_bind, hperform]
  cases result <;> rfl

/-- A command that is no check succeeds or fails as what it is about. -/
theorem ends_of_map {α : Type} {made? : Except ProjectError α} {result : α → Result}
    (hruns : ¬ AsksForText request) (hsucceeds : Succeeds fs request ↔ ∃ a, made? = .ok a)
    (hfresh : ¬ FindsStale fs request) (hcode : ∀ a, (result a).code = 0) :
    Ends fs request (endOf (made?.map result)).code := by
  cases made? with
  | error e =>
    refine .invalid hruns (fun h => ?_) hfresh
    obtain ⟨a, ha⟩ := hsucceeds.mp h
    cases ha
  | ok a =>
    show Ends fs request (result a).code
    rw [hcode a]
    exact .ok (hsucceeds.mpr ⟨a, rfl⟩) hfresh

theorem ends_check (config : Path) (force : Bool) :
    Ends fs (.run .check config force)
      (endOf ((runOn (TestActor.check config) fs).1.map checkResult)).code := by
  cases hcheck : (runOn (TestActor.check config) fs).1 with
  | error e =>
    refine .invalid id ?_ ?_
    · rintro ⟨outcome, houtcome, -⟩
      cases hcheck.symm.trans houtcome
    · rintro ⟨outcome, stored, houtcome, -⟩
      cases hcheck.symm.trans houtcome
  | ok outcome =>
    show Ends fs _ (checkResult outcome).code
    unfold checkResult
    cases hfresh : outcome.freshness with
    | upToDate =>
      refine .ok ⟨outcome, hcheck, hfresh⟩ ?_
      rintro ⟨found, stored, hfound, hstale⟩
      obtain rfl := Except.ok.inj (hcheck.symm.trans hfound)
      cases hfresh.symm.trans hstale
    | stale stored =>
      refine .stale id ?_ ⟨outcome, stored, hcheck, hfresh⟩
      rintro ⟨found, hfound, hupToDate⟩
      obtain rfl := Except.ok.inj (hcheck.symm.trans hfound)
      cases hfresh.symm.trans hupToDate

/-- **The code with which a request ends.** -/
theorem ends_of_parse (h : parse arguments = some request) :
    Ends fs request (ending arguments fs).1.code := by
  cases request with
  | version =>
    unfold ending run
    rw [h]
    exact .shown trivial id
  | help command =>
    unfold ending run
    rw [h]
    exact .shown trivial id
  | run command config force =>
    rw [ending_of_parse_run h]
    cases command with
    | build =>
      rw [perform, runOn_bind_pure]
      exact ends_of_map id Iff.rfl id fun _ => rfl
    | check =>
      rw [perform, runOn_bind_pure]
      exact ends_check config force
    | fingerprint =>
      rw [perform, runOn_bind_pure]
      exact ends_of_map id Iff.rfl id fun _ => rfl
    | actions =>
      rw [perform, runOn_bind_pure]
      exact ends_of_map id Iff.rfl id fun _ => rfl

/-! ## What the exit code tells -/

theorem ExitCodeTells.of_parse (h : parse arguments = some request) :
    ExitCodeTells fs arguments := by
  have hrequest : ∀ P : Request → Prop,
      (∃ found, parse arguments = some found ∧ P found) ↔ P request := by
    intro P
    rw [h]
    simp
  obtain ⟨hstale, hok, hinvalid⟩ := (ends_of_parse h : Ends fs request _).code_eq_iff
  refine ⟨?_, ?_, ?_⟩
  · rw [hrequest, hstale]
  · rw [hrequest, hok]
  · rw [hrequest, hrequest, hinvalid]

/-- **For which arguments the exit code tells how the program has ended**: for those that are a
request. Otherwise no command runs and no text was asked for, and the code is that of a stale
file. -/
theorem exitCodeTells_iff (fs : FileSystem) (arguments : List String) :
    (ExitCodeTells fs arguments ↔ (parse arguments).isSome) ∧
    ((ending arguments fs).1.code = 2 ↔ parse arguments = none ∨
      ∃ request, parse arguments = some request ∧ FindsStale fs request) := by
  cases h : parse arguments with
  | none =>
    have hcode : (ending arguments fs).1.code = 2 := by
      rw [ending_of_parse_none h]
      rfl
    refine ⟨iff_of_false (fun htells => ?_) (by simp), iff_of_true hcode (.inl rfl)⟩
    obtain ⟨request, hrequest, -⟩ := htells.stale.mp hcode
    cases h.symm.trans hrequest
  | some request =>
    have htells : ExitCodeTells fs arguments := .of_parse h
    refine ⟨iff_of_true htells rfl, ?_⟩
    rw [htells.stale, h]
    simp

/-- A misspelled check ends like a check that finds the generated file stale. Here the file has just
been built, and a check finds it up to date. -/
theorem exitCode_of_misspelled_check :
    ∃ outcome built, runOn (TestActor.build OneModule.configPath false) OneModule.files
        = (.ok outcome, built) ∧
      (ending ["check"] built).1.code = 0 ∧
      parse ["chek"] = none ∧ (ending ["chek"] built).1.code = 2 ∧
      ¬ ExitCodeTells built ["chek"] := by
  obtain ⟨outcome, built, hbuild, -⟩ := OneModule.exists_build
  obtain ⟨generator, hproject, hgenerator, -, -, hstamp⟩ :=
    survey_of_build OneModule.project_files hbuild OneModule.isApart_files
  have hsurvey : built.survey OneModule.configPath
      = .ok ⟨generator, (OneModule.inNamespace "A").outputPath, .upToDate⟩ :=
    FileSystem.survey_eq_ok_iff.mpr ⟨_, generator, _, hproject, hgenerator, hstamp,
      by rw [Freshness.of_eq_upToDate_iff.mpr rfl]⟩
  have hcheck : parse ["check"] = some (.run .check OneModule.configPath false) := by
    decide +kernel
  have hmisspelled : parse ["chek"] = none := by decide +kernel
  have hcode : (ending ["chek"] built).1.code = 2 := by
    rw [ending_of_parse_none hmisspelled]
    rfl
  have hchecked : (runOn (TestActor.check OneModule.configPath) built).1
      = .ok (Survey.unwritten
          ⟨generator, (OneModule.inNamespace "A").outputPath, .upToDate⟩) := by
    rw [runOn_check, hsurvey]
    rfl
  refine ⟨outcome, built, hbuild, ?_, hmisspelled, hcode, fun htells => ?_⟩
  · exact (ExitCodeTells.of_parse hcheck).ok.mpr ⟨_, hcheck, .inl ⟨_, hchecked, rfl⟩⟩
  · obtain ⟨request, hrequest, -⟩ := htells.stale.mp hcode
    cases hmisspelled.symm.trans hrequest

end CommandLine

end TestActor
