/-!
# The first line of a text

A line ends at a line feed; a carriage return directly before that line feed belongs to the line
break and not to the line.
-/

namespace TestActor.Text

/-- The text without one carriage return at its end. -/
def dropReturn : List Char → List Char
  | [] => []
  | ['\r'] => []
  | c :: r => c :: dropReturn r

/-- The text before the first line break; the whole text when there is none. -/
def firstLine (s : List Char) : List Char :=
  let line := s.takeWhile (· != '\n')
  if line.length < s.length then dropReturn line else line

end TestActor.Text
