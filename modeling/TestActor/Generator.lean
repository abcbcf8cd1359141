import TestActor.Fingerprint
import TestActor.FirstOf
import TestActor.Forwarder

/-!
# Generators

A generator holds the configured modules and the registry of their actions. From it a document is
produced: the forwarding methods of all registered actions in one trait, stamped with the
fingerprint.
-/

namespace TestActor

/-- What a generation is asked for. -/
structure Settings where
  className : String
  nspace : String
  modules : List String
  deriving DecidableEq

/-- A generated trait and the parts that it was made of. -/
structure Document where
  nspace : String
  fingerprint : String
  imports : List String
  methods : List String
  name : String
  source : String
  deriving DecidableEq

/-- The number of forwarding methods. -/
def Document.methodCount (d : Document) : Nat :=
  d.methods.length

/-- A generation that is ready to run. -/
structure Generator where
  settings : Settings
  types : Introspector
  modules : List ModuleInstance
  actions : ActionRegistry
  version : String

namespace Generator

/-- The version that fingerprints start with unless another is given. -/
def currentVersion : String := "0.1.0"

/-! ## Preparing -/

/-- The configured modules with the actions they contribute; the first module that cannot be used
ends it. -/
def contributions (source : ModuleSource) (names : List String) :
    Except GenerateError (List (ModuleInstance × List String)) :=
  names.mapM fun name => do
    let module ← source.instantiate name
    return (module, source.actions module)

/-- Prepares a generation. -/
def prepare (settings : Settings) (source : ModuleSource) (types : Introspector) :
    Except GenerateError Generator := do
  let contributed ← contributions source settings.modules
  return {
    settings, types
    version := currentVersion
    modules := contributed.map (·.1)
    actions := .ofContributions contributed }

/-- The same generation under another version. -/
def withVersion (g : Generator) (version : String) : Generator :=
  { g with version }

/-- The fingerprint of what is generated. -/
def fingerprint (g : Generator) : String :=
  Fingerprint.compute g.version g.actions g.settings.modules

/-! ## Forwarding methods -/

/-- The first configured module of a name. -/
def module? (g : Generator) (name : String) : Option ModuleInstance :=
  g.modules.find? (·.name == name)

/-- The forwarding methods of one registered action. -/
def forwardersOf (g : Generator) (action owner : String) : Except GenerateError (List String) :=
  match g.module? owner with
  | none => .error (.invariant owner "" action)
  | some module =>
    match Descriptor.resolve g.types module.typeName action with
    | none => .error (.invariant module.name module.typeName action)
    | some descriptor => (Step.ofMethod descriptor.method).mapM (Forwarder.render descriptor)

/-- The forwarding methods of registered actions, in order. An action that is among `emitted` is
passed over. -/
def forwarders (g : Generator) : List String → List (String × String) →
    Except GenerateError (List String)
  | _, [] => .ok []
  | emitted, (action, owner) :: rest =>
    if emitted.contains action then forwarders g emitted rest
    else do
      let first ← g.forwardersOf action owner
      let others ← forwarders g (action :: emitted) rest
      return first ++ others

/-! ## The document -/

/-- The import of a module's type. -/
def importOf (module : ModuleInstance) : String :=
  "use " ++ module.typeName ++ ";"

/-- The imports: one for each type of a module that owns an action. -/
def imports (g : Generator) : List String :=
  let owners := g.modules.filter fun module => g.actions.isOwner module.name
  (firstOf (·.typeName) [] owners).map importOf

/-- A namespace without the separators at its end. -/
def withoutSeparators (nspace : String) : String :=
  String.ofList (nspace.toList.reverse.dropWhile (· == '\\')).reverse

/-- What stands before a name inside a namespace. -/
def qualifier (nspace : String) : String :=
  if nspace.isEmpty then "" else nspace ++ "\\"

/-- Produces the document. -/
def produce (g : Generator) : Except GenerateError Document := do
  let methods ← g.forwarders [] g.actions.entries
  let nspace := withoutSeparators g.settings.nspace
  let source ← Template.actions.render
    [("hash", g.fingerprint), ("namespace_prefix", qualifier nspace),
     ("name", g.settings.className), ("imports", "\n".intercalate g.imports),
     ("methods", "\n\n ".intercalate methods)]
  return {
    nspace, methods, source
    fingerprint := g.fingerprint
    imports := g.imports
    name := g.settings.className ++ "Actions" }

/-- The registered actions with their owners and the steps that they give. -/
def listing (g : Generator) : List (String × String × List Step) :=
  g.actions.entries.map fun (action, owner) => (action, owner, Step.ofMethod action)

end Generator

end TestActor
