import TestActor.Parameter

/-!
# Declared types

What is known of a class or an interface: the type it extends, the interfaces it names, and the
methods it declares itself.
-/

namespace TestActor

/-- Who may call a method. -/
inductive Visibility where
  | isPublic
  | isProtected
  | isPrivate
  deriving DecidableEq

/-- A declared parameter, with the source text of its default. -/
structure ParameterDecl where
  name : String
  default : Option String := none
  deriving DecidableEq

/-- The parameter as a signature shows it. -/
def ParameterDecl.parameter (p : ParameterDecl) : Parameter :=
  ⟨p.name, p.default.isSome⟩

/-- A declared method. -/
structure MethodDecl where
  name : String
  doc : Option String := none
  params : List ParameterDecl := []
  visibility : Visibility := .isPublic
  deriving DecidableEq

/-- The method's parameters as a signature shows them. -/
def MethodDecl.parameters (m : MethodDecl) : List Parameter :=
  m.params.map ParameterDecl.parameter

/-- The method's own documentation comment, empty when it has none. -/
def MethodDecl.documentation (m : MethodDecl) : String :=
  m.doc.getD ""

/-- A declared class or interface. -/
structure TypeDecl where
  name : String
  parent : Option String := none
  interfaces : List String := []
  methods : List MethodDecl := []
  deriving DecidableEq

/-- The type's own first declaration of a method. -/
def TypeDecl.method? (t : TypeDecl) (name : String) : Option MethodDecl :=
  t.methods.find? (·.name == name)

end TestActor
