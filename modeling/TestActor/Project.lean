import TestActor.Config.Reading
import TestActor.Disk
import TestActor.Manifest.Reading

/-!
# Projects

A project is a configuration file with the manifest that it names. Loading a project reads both
files; a generator is then prepared from what was read.
-/

namespace TestActor

/-- Why something fails that was to be done with a project. -/
inductive ProjectError where
  | unreadable (path : Path) (failure : FileError)
  | unreadableManifest (path : Path) (failure : FileError)
  | configText (path : Path) (error : Toml.Error)
  | config (fault : ConfigFault)
  | manifest (path : Path) (error : ManifestError)
  | generator (error : GenerateError)
  | document (error : GenerateError)
  | replace (error : Disk.ReplaceError)
  deriving DecidableEq

namespace ProjectError

/-- The step of a replacement in words. -/
def stepText : Disk.ReplaceStep → String
  | .createDirectory path => "create directory " ++ path.text
  | .writeTemporary path => "write temp file " ++ path.text
  | .replace path => "replace " ++ path.text

/-- What was being done, the outermost first. -/
def contexts : ProjectError → List String
  | unreadable path _ => ["read " ++ path.text]
  | unreadableManifest path _ => ["read manifest " ++ path.text]
  | configText path _ => ["parse " ++ path.text]
  | config _ => []
  | manifest path (.toml _) => ["load manifest " ++ path.text, "parse manifest"]
  | manifest path (.fault _) => ["load manifest " ++ path.text]
  | generator _ => ["construct generator"]
  | document _ => ["generate actions"]
  | replace (.noParent _) => []
  | replace (.failed step _) => [stepText step]

/-- What went wrong. -/
def cause : ProjectError → String
  | unreadable _ failure => failure.message
  | unreadableManifest _ failure => failure.message
  | configText _ error => error.message
  | config fault => fault.message
  | manifest _ (.toml error) => error.message
  | manifest _ (.fault fault) => fault.message
  | generator error => error.message
  | document error => error.message
  | replace (.noParent path) => "path missing parent " ++ path.text
  | replace (.failed _ failure) => failure.message

/-- The whole wording: what was being done, and what went wrong. -/
def message (error : ProjectError) : String :=
  ": ".intercalate (error.contexts ++ [error.cause])

end ProjectError

variable {m : Type → Type} [Monad m] [Disk m]

/-- Reads a configuration file. -/
def Config.load (path : Path) : ExceptT ProjectError m Config := do
  let text ← (Disk.readText path).adapt (.unreadable path)
  match Config.ofText text with
  | .error error => throw (.configText path error)
  | .ok config =>
    match config.fault? with
    | some fault => throw (.config fault)
    | none => return config

/-- Writes a configuration file. A configuration with a fault is not written. -/
def Config.save (path : Path) (config : Config) : ExceptT ProjectError m Unit :=
  match config.fault? with
  | some fault => throw (.config fault)
  | none => (Disk.replaceFile path config.toText).adapt .replace

/-- Reads a manifest file. -/
def Manifest.load (path : Path) : ExceptT ProjectError m Manifest := do
  let text ← (Disk.readText path).adapt (.unreadableManifest path)
  match Manifest.ofText text with
  | .error error => throw (.manifest path error)
  | .ok manifest => return manifest

/-- A configuration with its manifest, and the directory that its paths are read from. -/
structure Project where
  config : Config
  manifest : Manifest
  base : Path
  deriving DecidableEq

namespace Project

/-- Loads a configuration file and the manifest that it names. -/
def load (path : Path) : ExceptT ProjectError m Project := do
  let config ← Config.load path
  let base := path.parent.getD ⟨""⟩
  let manifest ← Manifest.load (config.manifestPath base)
  return ⟨config, manifest, base⟩

/-- The generator of a project. -/
def generator (project : Project) : Except ProjectError Generator :=
  (Generator.prepare project.config.settings project.manifest.source
    project.manifest.types.introspector).mapError .generator

/-- The file to write. -/
def outputPath (project : Project) : Path :=
  project.config.outputPath project.base

end Project

end TestActor
