import TestActor.Descriptor
import TestActor.Step
import TestActor.Template

/-!
# Forwarding methods

A forwarding method has the public name of a step and hands its arguments on to a module's method,
run as a step of that kind.
-/

namespace TestActor.Forwarder

/-- Stands in the place of documentation that is empty. -/
def emptyDoc : String := "*"

/-- The line that a conditional assertion adds to its documentation. -/
def conditionalNote : String :=
  "\n     * Conditional Assertion: Test won't be stopped on fail"

/-- The documentation of a forwarding method that runs a step of the given kind. -/
def docText (doc : String) (kind : StepKind) : String :=
  let shown := if doc.isEmpty then emptyDoc else doc
  if kind = .conditionalAssertion then shown ++ conditionalNote else shown

/-- The values of the method template for a step of the described method. -/
def values (d : Descriptor) (step : Step) : Values :=
  [("doc", docText d.doc step.kind), ("module", d.owner), ("method", d.method),
   ("action", step.name), ("params", Parameter.listText d.params), ("step", step.kind.name)]

/-- The forwarding method for a step of the described method. -/
def render (d : Descriptor) (step : Step) : Except GenerateError String :=
  Template.method.render (values d step)

end TestActor.Forwarder
