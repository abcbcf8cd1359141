import TestActor.Build
import TestActor.CommandLine.Arguments

/-!
# The command line

A run ends with an exit code, with text for the standard output and with text for the standard
error.
-/

namespace TestActor.CommandLine

/-- How a run ends. -/
structure Result where
  code : Nat
  stdout : String := ""
  stderr : String := ""
  deriving DecidableEq

namespace ExitCode

/-- The command succeeded; after a check, the generated file is up to date. -/
def ok : Nat := 0

/-- The command failed. -/
def invalid : Nat := 1

/-- A check found the generated file missing or out of date. -/
def stale : Nat := 2

/-- The arguments do not fit. -/
def usage : Nat := 2

end ExitCode

/-! ## Texts -/

/-- The name of the program with its version. -/
def versionText : String :=
  "actiongen " ++ Generator.currentVersion ++ "\n"

/-- How the program is called. -/
def usageText (command : Option Command) : String :=
  match command with
  | none => "Usage: actiongen [OPTIONS] <COMMAND>\n"
  | some command => "Usage: actiongen " ++ command.word ++ " [OPTIONS]\n"

/-- The line that a build prints. -/
def buildText (outcome : Outcome) : String :=
  match outcome.methods with
  | some methods =>
    "build: wrote " ++ outcome.outputPath.text ++ " methods=" ++ toString methods
      ++ " fingerprint=" ++ outcome.fingerprint ++ "\n"
  | none =>
    "build: up to date " ++ outcome.outputPath.text ++ " fingerprint=" ++ outcome.fingerprint
      ++ "\n"

/-- How a check ends. -/
def checkResult (outcome : Outcome) : Result :=
  match outcome.freshness with
  | .upToDate => ⟨ExitCode.ok, "check: up to date " ++ outcome.outputPath.text ++ "\n", ""⟩
  | .stale stored =>
    ⟨ExitCode.stale,
      "check: stale " ++ outcome.outputPath.text ++ " stored=" ++ stored.getD "none"
        ++ " current=" ++ outcome.fingerprint ++ "\n", ""⟩

/-- The line for one registered action. -/
def actionText (action owner : String) (steps : List Step) : String :=
  let kinds := steps.map fun step => step.kind.name ++ ":" ++ step.name
  action ++ "\t" ++ owner ++ "\t" ++ ",".intercalate kinds ++ "\n"

/-- The lines for all registered actions. -/
def actionsText (g : Generator) : String :=
  String.join (g.listing.map fun (action, owner, steps) => actionText action owner steps)

/-! ## Commands -/

variable {m : Type → Type} [Monad m] [Disk m]

/-- Loads a project and prepares its generator. -/
def loadGenerator (config : Path) : ExceptT ProjectError m Generator := do
  let project ← Project.load config
  project.generator

/-- Runs a command. -/
def perform (command : Command) (config : Path) (force : Bool) : ExceptT ProjectError m Result := do
  match command with
  | .build => return ⟨ExitCode.ok, buildText (← TestActor.build config force), ""⟩
  | .check => return checkResult (← TestActor.check config)
  | .fingerprint => return ⟨ExitCode.ok, (← loadGenerator config).fingerprint ++ "\n", ""⟩
  | .actions => return ⟨ExitCode.ok, actionsText (← loadGenerator config), ""⟩

/-- Runs the program with its arguments. -/
def run (arguments : List String) : m Result := do
  match parse arguments with
  | none => return ⟨ExitCode.usage, "", usageText none⟩
  | some .version => return ⟨ExitCode.ok, versionText, ""⟩
  | some (.help command) => return ⟨ExitCode.ok, usageText command, ""⟩
  | some (.run command config force) =>
    match ← (perform command config force).run with
    | .ok result => return result
    | .error error => return ⟨ExitCode.invalid, "", error.message ++ "\n"⟩

end TestActor.CommandLine
