import TestActor.TypeTable.Ancestry

/-!
# Introspectors

Generation asks few questions about types, and an introspector is the record of the answers. A
type table gives one; so may any other source.
-/

namespace TestActor

/-- The questions about types that generation asks. A method is named together with the type that
it is looked up from. -/
structure Introspector where
  /-- The type that declares the method. -/
  declaringType : String → String → Option String
  /-- The method's parameters. -/
  parameters : String → String → Option (List Parameter)
  /-- The method's documentation comment. -/
  documentation : String → String → Option String
  /-- Is the method seen from the type? -/
  hasMethod : String → String → Bool := fun type method => (declaringType type method).isSome
  /-- The interfaces that the type itself names. -/
  interfaces : String → List String
  /-- The parent that the type names. -/
  parent : String → Option String

/-- The answers of a type table. -/
def TypeTable.introspector (table : TypeTable) : Introspector where
  declaringType := table.declaringType
  parameters := table.parameters
  documentation := table.documentation
  interfaces := table.interfaces
  parent := table.parent

end TestActor
