import TestActor.DocComment
import TestActor.Introspector

/-!
# Method descriptors

A descriptor is all that a forwarding method shows of the method it forwards to: the type that
declares it, its parameters and its documentation.

## Where the documentation comes from

The method's own comment comes first. When it is empty, the first interface of the declaring type
from which the method is seen gives its comment, even an empty one. When there is still none, the
comment seen from the declaring type's parent is taken. The parent's interfaces are not asked.
-/

namespace TestActor

/-- What a forwarding method shows of its method. -/
structure Descriptor where
  owner : String
  method : String
  params : List Parameter
  doc : String
  deriving DecidableEq

namespace Descriptor

/-- The comment of the first interface of `owner` from which the method is seen. -/
def interfaceDoc (types : Introspector) (owner method : String) : String :=
  match (types.interfaces owner).find? (types.hasMethod · method) with
  | none => ""
  | some interface => (types.documentation interface method).getD ""

/-- The comment seen from the parent of `owner`. -/
def parentDoc (types : Introspector) (owner method : String) : String :=
  match types.parent owner with
  | none => ""
  | some parent =>
    if types.hasMethod parent method then (types.documentation parent method).getD "" else ""

/-- The first comment that is not empty: the method's own, an interface's, the parent's. -/
def rawDoc (types : Introspector) (owner method : String) : String :=
  let own := (types.documentation owner method).getD ""
  let doc := if own.isEmpty then interfaceDoc types owner method else own
  if doc.isEmpty then parentDoc types owner method else doc

/-- The descriptor of the method that is seen from `type`. -/
def resolve (types : Introspector) (type method : String) : Option Descriptor := do
  let owner ← types.declaringType type method
  let params ← types.parameters owner method
  return ⟨owner, method, params, DocComment.text (rawDoc types owner method)⟩

end Descriptor

end TestActor
