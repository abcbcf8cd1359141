import TestActor.Generator
import TestActor.Path
import TestActor.Text.Blank

/-!
# Configurations

A configuration names the trait to generate, the modules in use, the manifest that describes them
and the file to write. Its paths are read from the directory of the configuration file.
-/

namespace TestActor

open Text

/-- What is to be generated, from which manifest and into which file. -/
structure Config where
  /-- What the name of the trait begins with. -/
  className : String := "Acceptance"
  nspace : String := ""
  /-- The modules in use; of two that have the same action the earlier one owns it. -/
  modules : List String := []
  manifest : Path := ⟨"modules.toml"⟩
  /-- The file to write, when it is not the usual one. -/
  output : Option Path := none
  deriving DecidableEq

/-- Why a configuration is refused. -/
inductive ConfigFault where
  | blankClassName
  | notIdentifier (className : String)
  | blankModule
  | emptyManifest
  deriving DecidableEq

/-- The wording of a fault. -/
def ConfigFault.message : ConfigFault → String
  | blankClassName => "class_name must be non-empty"
  | notIdentifier className => "class_name must be a plain identifier, got '" ++ className ++ "'"
  | blankModule => "modules must not contain empty names"
  | emptyManifest => "manifest must be a non-empty path"

namespace Config

/-- The characters of a class name: letters and digits of ASCII, and the underscore. -/
def isIdentifierChar (c : Char) : Bool :=
  ('a' ≤ c && c ≤ 'z') || ('A' ≤ c && c ≤ 'Z') || ('0' ≤ c && c ≤ '9') || c = '_'

/-- The first fault of a configuration. -/
def fault? (config : Config) : Option ConfigFault :=
  if isBlankText config.className then some .blankClassName
  else if !config.className.toList.all isIdentifierChar then
    some (.notIdentifier config.className)
  else if config.modules.any isBlankText then some .blankModule
  else if config.manifest.text.isEmpty then some .emptyManifest
  else none

/-- Passes a configuration without faults. -/
def validate (config : Config) : Except ConfigFault Unit :=
  match config.fault? with
  | some fault => .error fault
  | none => .ok ()

/-- What the generation is asked for. -/
def settings (config : Config) : Settings :=
  ⟨config.className, config.nspace, config.modules⟩

/-- The manifest, read from a directory. -/
def manifestPath (config : Config) (base : Path) : Path :=
  base.join config.manifest

/-- The directory that holds generated files unless another file is named. -/
def generatedDirectory : Path := ⟨"_generated"⟩

/-- The file to write, read from a directory. -/
def outputPath (config : Config) (base : Path) : Path :=
  match config.output with
  | some output => base.join output
  | none => (base.join generatedDirectory).join ⟨config.className ++ "Actions.php"⟩

end Config

end TestActor
