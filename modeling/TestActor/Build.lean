import TestActor.Project
import TestActor.Stamp

/-!
# Building and checking

A build writes the generated file when the fingerprint on it is not the current one, or when it is
forced. A check compares the fingerprints and writes nothing.
-/

namespace TestActor

variable {m : Type → Type} [Monad m] [Disk m]

/-! ## The generated file -/

namespace Artifact

/-- The stamp of a file; a file that is missing has none. -/
def readStamp (path : Path) : ExceptT ProjectError m (Option String) := do
  if ← (Disk.isPresent path : m Bool) then
    let text ← (Disk.readText path).adapt (.unreadable path)
    return Stamp.ofContents? text
  else return none

/-- The source with a line break at its end. -/
def withFinalBreak (source : String) : String :=
  if source.toList.getLast? == some '\n' then source else source ++ "\n"

/-- Writes the generated file. -/
def save (path : Path) (source : String) : ExceptT ProjectError m Unit :=
  (Disk.replaceFile path (withFinalBreak source)).adapt .replace

end Artifact

/-! ## Freshness -/

/-- Is the generated file up to date? -/
inductive Freshness where
  | upToDate
  /-- It is missing, has no stamp, or has the stamp of something else. -/
  | stale (stored : Option String)
  deriving DecidableEq

/-- Compares the stamp on a file with a fingerprint. -/
def Freshness.of (stored : Option String) (fingerprint : String) : Freshness :=
  if stored = some fingerprint then .upToDate else .stale stored

/-- What a build or a check found and did. -/
structure Outcome where
  outputPath : Path
  fingerprint : String
  /-- Before anything was written. -/
  freshness : Freshness
  written : Bool
  /-- The number of forwarding methods, when there was a generation. -/
  methods : Option Nat
  deriving DecidableEq

/-- A project that is ready to build, compared with its generated file. -/
structure Survey where
  generator : Generator
  outputPath : Path
  freshness : Freshness

/-- Loads a project, prepares its generator and reads the stamp of its generated file. -/
def survey (config : Path) : ExceptT ProjectError m Survey := do
  let project ← Project.load config
  let generator ← project.generator
  let stored ← Artifact.readStamp project.outputPath
  return ⟨generator, project.outputPath, .of stored generator.fingerprint⟩

/-- The outcome of a run that writes nothing. -/
def Survey.unwritten (s : Survey) : Outcome :=
  ⟨s.outputPath, s.generator.fingerprint, s.freshness, false, none⟩

/-- The outcome of a run that writes a document. -/
def Survey.written (s : Survey) (document : Document) : Outcome :=
  ⟨s.outputPath, document.fingerprint, s.freshness, true, some document.methodCount⟩

/-- Compares the fingerprints and writes nothing. -/
def check (config : Path) : ExceptT ProjectError m Outcome := do
  return (← survey config).unwritten

/-- Writes the generated file when it is stale, or in any case when forced. -/
def build (config : Path) (force : Bool) : ExceptT ProjectError m Outcome := do
  let s ← survey config
  if s.freshness = .upToDate ∧ !force then return s.unwritten
  else
    let document ← s.generator.produce.mapError ProjectError.document
    Artifact.save s.outputPath document.source
    return s.written document

end TestActor
