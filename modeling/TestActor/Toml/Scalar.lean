import TestActor.Toml.Moment
import TestActor.Toml.Value

/-!
# Scalars without quotation marks

Truth values, numbers, dates and times are written without quotation marks. A lexeme has the form
of one of them as a whole or stands for nothing.
-/

namespace TestActor.Toml

/-- Reads a whole lexeme. -/
def scalar? (s : List Char) : Option Value :=
  if s = "true".toList then some (.boolean true)
  else if s = "false".toList then some (.boolean false)
  else if isMoment s then some (.moment (String.ofList s))
  else if isInteger s then some (.integer (String.ofList s))
  else if isFloat s then some (.float (String.ofList s))
  else none

end TestActor.Toml
