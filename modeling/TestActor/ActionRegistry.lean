import TestActor.GenerateError
import TestActor.Json

/-!
# Action registries

An action registry says which module owns each action. Actions stand in the order in which they
were registered, and the module that registers a name first owns it.
-/

namespace TestActor

/-- A module that is in use, with the type that implements it. -/
structure ModuleInstance where
  name : String
  typeName : String
  deriving DecidableEq

/-- Where modules come from. -/
structure ModuleSource where
  /-- The module of a configured name. -/
  instantiate : String → Except GenerateError ModuleInstance
  /-- The methods of a module that become actions, in order. -/
  actions : ModuleInstance → List String

/-- The actions with their owners, and the names that are taken. -/
structure ActionRegistry where
  entries : List (String × String) := []
  taken : List String := []
  deriving DecidableEq

namespace ActionRegistry

/-- The registry without any action. -/
def empty : ActionRegistry := {}

/-- Registers an action for a module unless its name is taken; says whether it was added. -/
def register (r : ActionRegistry) (action module : String) : Bool × ActionRegistry :=
  if r.taken.contains action then (false, r)
  else (true, ⟨r.entries ++ [(action, module)], action :: r.taken⟩)

/-- Registers actions for one module, in order. -/
def registerAll (r : ActionRegistry) (module : String) (actions : List String) : ActionRegistry :=
  actions.foldl (fun r action => (r.register action module).2) r

/-- The registry of modules with the actions they contribute, in order. -/
def ofContributions (contributions : List (ModuleInstance × List String)) : ActionRegistry :=
  contributions.foldl (fun r (module, actions) => r.registerAll module.name actions) empty

/-- The module that owns an action. -/
def moduleOf (r : ActionRegistry) (action : String) : Option String :=
  r.entries.lookup action

/-- Does the module own an action? -/
def isOwner (r : ActionRegistry) (module : String) : Bool :=
  r.entries.any (·.2 == module)

/-- The number of actions. -/
def size (r : ActionRegistry) : Nat :=
  r.entries.length

/-- Is there no action? -/
def isEmpty (r : ActionRegistry) : Bool :=
  r.entries.isEmpty

/-- The registry as an object from actions to modules, in order. -/
def json (r : ActionRegistry) : List Char :=
  Json.ofPairs r.entries

end ActionRegistry

end TestActor
