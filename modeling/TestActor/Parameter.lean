/-!
# Parameters of a forwarding method

A parameter with a default is written with `null` in its place: the forwarding method passes on
the arguments that it was given, so the value itself is never needed.
-/

namespace TestActor

/-- A parameter as a signature shows it. -/
structure Parameter where
  name : String
  hasDefault : Bool
  deriving DecidableEq

namespace Parameter

/-- One parameter of a signature. -/
def text (p : Parameter) : String :=
  if p.hasDefault then "$" ++ p.name ++ " = null" else "$" ++ p.name

/-- The parameters of a signature, in order, with a comma and a space between neighbours. -/
def listText (params : List Parameter) : String :=
  ", ".intercalate (params.map text)

end Parameter

end TestActor
