import TestActor.ActionRegistry
import TestActor.FirstOf
import TestActor.ManifestFile
import TestActor.TypeTable.Ancestry

/-!
# Manifests

A manifest holds what a file without faults lists. It is a source of modules, and its types answer
what a generation asks about them.

## Actions

The actions of a module are the public methods that are seen from its type. The nearest declaration
of a name decides: when it is not public, or its name is that of a hook, or the module leaves it
out, then the method is no action, whatever an ancestor declares.
-/

namespace TestActor

/-- The modules and types of a file without faults. -/
structure Manifest where
  modules : List ModuleEntry
  types : TypeTable
  deriving DecidableEq

namespace Manifest

/-- The manifest of a file, or the first fault of the file. -/
def ofFile (file : ManifestFile) : Except ManifestFault Manifest :=
  match file.fault? with
  | some fault => .error fault
  | none => .ok ⟨file.modules, .ofList file.types⟩

/-- The first module of a name. -/
def module? (manifest : Manifest) (name : String) : Option ModuleEntry :=
  manifest.modules.find? (·.name == name)

/-! ## Modules in use -/

/-- The module of a configured name; its type has to be described. -/
def instantiate (manifest : Manifest) (name : String) : Except GenerateError ModuleInstance :=
  match manifest.module? name with
  | none => .error (.configuration (.unknown name))
  | some entry =>
    if manifest.types.contains entry.typeName then .ok ⟨entry.name, entry.typeName⟩
    else .error (.configuration (.undescribed name entry.typeName))

/-- The names of hooks begin with an underscore. -/
def isHook (method : String) : Bool :=
  method.toList.head? == some '_'

/-- May the method be an action of the module? -/
def isEligible (entry : ModuleEntry) (method : MethodDecl) : Bool :=
  method.visibility = .isPublic && !isHook method.name
    && !entry.excludeActions.contains method.name
    && (entry.onlyActions.isEmpty || entry.onlyActions.contains method.name)

/-- The types whose methods may become actions of a module with the given type. -/
def reach (manifest : Manifest) (entry : ModuleEntry) (typeName : String) : List TypeDecl :=
  let chain := manifest.types.ancestry typeName
  if entry.includeInherited then chain else chain.take 1

/-- The actions of a module: its own methods first, then those of its ancestors. -/
def actions (manifest : Manifest) (module : ModuleInstance) : List String :=
  match manifest.module? module.name with
  | none => []
  | some entry =>
    let declared := (manifest.reach entry module.typeName).flatMap (·.methods)
    ((firstOf (·.name) [] declared).filter (isEligible entry)).map (·.name)

/-- The manifest as a source of modules. -/
def source (manifest : Manifest) : ModuleSource :=
  ⟨manifest.instantiate, manifest.actions⟩

end Manifest

end TestActor
