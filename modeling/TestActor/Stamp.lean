import TestActor.Text.Blank
import TestActor.Text.Hex
import TestActor.Text.Lines

/-!
# Stamps

A generated file carries its fingerprint as a stamp on its first line, behind the opening tag and
the mark `//[STAMP]`. A file without a stamp was not generated.
-/

namespace TestActor.Stamp

open Text

/-- What follows `start` at the front of a text. -/
def after? (start s : List Char) : Option (List Char) :=
  if start.isPrefixOf s then some (s.drop start.length) else none

/-- What follows the blanks at the front of a text, of which there is at least one. -/
def afterBlanks? : List Char → Option (List Char)
  | [] => none
  | c :: r => if isBlank c then some (r.dropWhile isBlank) else none

/-- The stamp on a line. -/
def ofLine? (line : List Char) : Option (List Char) := do
  let opened ← after? "<?php".toList line
  let marked ← after? "//[STAMP]".toList (← afterBlanks? opened)
  let digits := (← afterBlanks? marked).takeWhile isLowerHex
  if digits.isEmpty then none else some digits

/-- The stamp on the first line of a file. -/
def ofContents? (contents : String) : Option String :=
  (ofLine? (firstLine contents.toList)).map String.ofList

end TestActor.Stamp
