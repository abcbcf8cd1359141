import TestActor.Text.Blank
import TestActor.Text.Replace

/-!
# Documentation comments

The text of a documentation comment is what is left when its delimiters are taken out.
-/

namespace TestActor.DocComment

open Text

/-- Takes out every opening delimiter, then every closing one, then the blanks at both ends. -/
def strip (raw : List Char) : List Char :=
  trim (replaceAll "*/".toList [] (replaceAll "/**".toList [] raw))

/-- The text of a documentation comment. -/
def text (raw : String) : String :=
  String.ofList (strip raw.toList)

end TestActor.DocComment
