import TestActor.Text.Blank
import TestActor.TypeDecl

/-!
# Manifest files

A manifest file lists the modules that can be configured and the types that implement them.

## Faults

A file is refused for its first fault. All modules are looked at before all types; of a module, the
name comes before the type and the type before a repetition; of a type, a repetition comes before
the repetitions among its methods.
-/

namespace TestActor

open Text

/-- A module that can be configured. -/
structure ModuleEntry where
  name : String
  typeName : String
  /-- Do inherited methods become actions? -/
  includeInherited : Bool := true
  /-- When there are any, only these methods become actions. -/
  onlyActions : List String := []
  /-- These methods never become actions. -/
  excludeActions : List String := []
  deriving DecidableEq

/-- What a manifest file lists. -/
structure ManifestFile where
  modules : List ModuleEntry := []
  types : List TypeDecl := []
  deriving DecidableEq

/-- Why a manifest file is refused. -/
inductive ManifestFault where
  | blankModuleName
  | blankModuleType (module : String)
  | duplicateModule (module : String)
  | duplicateType (type : String)
  | duplicateMethod (type method : String)
  deriving DecidableEq

/-- The wording of a fault. -/
def ManifestFault.message : ManifestFault → String
  | blankModuleName => "modules: name must be non-empty"
  | blankModuleType module => "module " ++ module ++ ": type must be non-empty"
  | duplicateModule module => "duplicate module '" ++ module ++ "'"
  | duplicateType type => "duplicate type '" ++ type ++ "'"
  | duplicateMethod type method => "type " ++ type ++ ": duplicate method '" ++ method ++ "'"

namespace ManifestFile

/-! ## Faults -/

/-- The first fault of modules, when modules of the given names came before. -/
def moduleFault? : List String → List ModuleEntry → Option ManifestFault
  | _, [] => none
  | earlier, entry :: rest =>
    if isBlankText entry.name then some .blankModuleName
    else if isBlankText entry.typeName then some (.blankModuleType entry.name)
    else if earlier.contains entry.name then some (.duplicateModule entry.name)
    else moduleFault? (entry.name :: earlier) rest

/-- The first name of a type's methods that came before. -/
def methodFault? (type : String) : List String → List MethodDecl → Option ManifestFault
  | _, [] => none
  | earlier, method :: rest =>
    if earlier.contains method.name then some (.duplicateMethod type method.name)
    else methodFault? type (method.name :: earlier) rest

/-- The first fault of types, when types of the given names came before. -/
def typeFault? : List String → List TypeDecl → Option ManifestFault
  | _, [] => none
  | earlier, decl :: rest =>
    if earlier.contains decl.name then some (.duplicateType decl.name)
    else (methodFault? decl.name [] decl.methods).or (typeFault? (decl.name :: earlier) rest)

/-- The first fault of a file: all modules come before all types. -/
def fault? (file : ManifestFile) : Option ManifestFault :=
  (moduleFault? [] file.modules).or (typeFault? [] file.types)

end ManifestFile

end TestActor
