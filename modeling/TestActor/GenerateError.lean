import TestActor.Text.Quoted

/-!
# Errors of a generation

A generation fails for one of three reasons: a configured module cannot be used, a module does not
have a method that was registered for it, or a template cannot be filled in.
-/

namespace TestActor

open Text

/-- Why a configured module cannot be used. -/
inductive ModuleFault where
  /-- The manifest has no module of this name. -/
  | unknown (module : String)
  /-- The manifest does not describe the module's type. -/
  | undescribed (module type : String)
  /-- Another source of modules gives a reason of its own. -/
  | refused (reason : String)
  deriving DecidableEq

/-- The wording of a module fault. -/
def ModuleFault.message : ModuleFault → String
  | unknown module => "module '" ++ module ++ "' is not in the manifest"
  | undescribed module type =>
    "module '" ++ module ++ "': type " ++ type ++ " is not described in the manifest"
  | refused reason => reason

/-- Why a template cannot be filled in. -/
inductive TemplateFault where
  /-- A placeholder on this line, counted from one, has no value. -/
  | undefinedValue (line : Nat)
  /-- There is no template of that name. -/
  | notFound
  deriving DecidableEq

/-- The wording of a template fault. -/
def TemplateFault.message (name : String) : TemplateFault → String
  | undefinedValue line => "undefined value (in " ++ name ++ ":" ++ toString line ++ ")"
  | notFound => "template not found: template " ++ quoted name ++ " does not exist"

/-- Why a generation fails. -/
inductive GenerateError where
  | configuration (fault : ModuleFault)
  | invariant (module type method : String)
  | template (name : String) (fault : TemplateFault)
  deriving DecidableEq

/-- The wording of a generation error. -/
def GenerateError.message : GenerateError → String
  | configuration fault => "configuration error: " ++ fault.message
  | invariant module type method =>
    "module " ++ module ++ " (" ++ type ++ ") has no method " ++ method
  | template name fault => "template " ++ name ++ ": " ++ fault.message name

end TestActor
