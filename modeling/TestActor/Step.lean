import TestActor.Text.Replace

/-!
# Steps of a scenario

A test actor performs a module's method as a step. The first letters of the method's name say what
kind of step it is, and an assertion comes in two forms: the plain one stops the scenario when it
fails, the conditional one does not.

## Main definitions

* `StepKind`, `Step`: what a forwarding method runs and the public name it has.
* `Step.ofMethod`: the steps that a method gives, in the order in which they are written.
-/

namespace TestActor

open Text

/-- What running a step means for the scenario. -/
inductive StepKind where
  | action
  | condition
  | assertion
  | conditionalAssertion
  deriving DecidableEq

/-- The name of the class that runs steps of this kind. -/
def StepKind.name : StepKind → String
  | action => "Action"
  | condition => "Condition"
  | assertion => "Assertion"
  | conditionalAssertion => "ConditionalAssertion"

/-- Finds the kind with a given name; letter case counts. -/
def StepKind.ofName? (name : String) : Option StepKind :=
  [action, condition, assertion, conditionalAssertion].find? (·.name == name)

theorem StepKind.ofName?_name (kind : StepKind) : ofName? kind.name = some kind := by
  cases kind <;> decide

/-- A forwarding method to write: the kind of step it runs and its public name. -/
structure Step where
  kind : StepKind
  name : String
  deriving DecidableEq

namespace Step

/-- Does `name` begin with `start`, letter case included? -/
def beginsWith (start name : String) : Bool :=
  start.toList.isPrefixOf name.toList

/-- The name with its first letter in upper case. A first letter outside ASCII would stay as it is;
none comes up, because only names that begin with `see` are capitalized. -/
def capitalized (name : String) : String :=
  match name.toList with
  | [] => ""
  | c :: r => String.ofList (c.toUpper :: r)

/-- The conditional name of a `see` assertion: `can` before the capitalized name. -/
def canName (method : String) : String :=
  "can" ++ capitalized method

/-- The conditional name of a `dontSee` assertion: every `dont` becomes `cant`. -/
def cantName (method : String) : String :=
  String.ofList (replaceAll "dont".toList "cant".toList method.toList)

/-- The steps that a method gives: an assertion is preceded by its conditional form. -/
def ofMethod (method : String) : List Step :=
  if beginsWith "see" method then
    [⟨.conditionalAssertion, canName method⟩, ⟨.assertion, method⟩]
  else if beginsWith "dontSee" method then
    [⟨.conditionalAssertion, cantName method⟩, ⟨.assertion, method⟩]
  else if beginsWith "am" method then
    [⟨.condition, method⟩]
  else
    [⟨.action, method⟩]

theorem ofMethod_ne_nil (method : String) : ofMethod method ≠ [] := by
  unfold ofMethod
  split
  · simp
  · split
    · simp
    · split <;> simp

end Step

end TestActor
