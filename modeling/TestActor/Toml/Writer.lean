import TestActor.Text.Hex

/-!
# Writing TOML

A document is written as assignments, one below the other. The form of a string is the simplest one
that can hold it: a basic string on one line where nothing has to be escaped, a literal string
where that helps, several lines where the text has line breaks or both kinds of marks.
-/

namespace TestActor.Toml

open Text

/-! ## Strings -/

/-- A character that never needs an escape in any form. -/
def isPlain (c : Char) : Bool :=
  ('a' ≤ c && c ≤ 'z') || ('A' ≤ c && c ≤ 'Z') || ('0' ≤ c && c ≤ '9')
    || c = '-' || c = '_' || c = '.' || c = '/' || c = ' ' || c = ':'

/-- A control that only an escape can write. -/
def needsEscape (c : Char) : Bool :=
  (c.toNat < 0x20 && c ≠ '\t' && c ≠ '\n') || c.toNat = 0x7F

/-- The length of the longest run of a character, when a run of `current` ends at the front. -/
def longestRun (mark : Char) : Nat → List Char → Nat
  | current, [] => current
  | current, c :: r =>
    if c = mark then longestRun mark (current + 1) r
    else max current (longestRun mark 0 r)

/-- The four forms of a string. -/
inductive Form where
  | basic
  | literal
  | basicLines
  | literalLines
  deriving DecidableEq

/-- The form in which a string is written. -/
def formOf (s : List Char) : Form :=
  let controls := s.any needsEscape
  let backslash := s.contains '\\'
  let lineBreak := s.contains '\n'
  let double := longestRun '"' 0 s
  let single := longestRun '\'' 0 s
  if s.all isPlain then .basic
  else if !controls && !backslash && double = 0 && !lineBreak then .basic
  else if !controls && single = 0 && !lineBreak then .literal
  else if !controls && !backslash && double ≤ 2 then .basicLines
  else if !controls && single ≤ 2 then .literalLines
  else if lineBreak then .basicLines
  else .basic

/-- What a basic string holds for a character other than a quotation mark and a line feed. -/
def basicChar (c : Char) : List Char :=
  if c = '\x08' then ['\\', 'b']
  else if c = '\t' then ['\\', 't']
  else if c = '\x0c' then ['\\', 'f']
  else if c = '\r' then ['\\', 'r']
  else if c = '\\' then ['\\', '\\']
  else if c.toNat < 0x20 || c.toNat = 0x7F then
    ['\\', 'u', '0', '0', hexDigitUpper (c.toNat / 16), hexDigitUpper (c.toNat % 16)]
  else [c]

/-- The inside of a basic string on one line. -/
def basicText (s : List Char) : List Char :=
  s.flatMap fun c =>
    if c = '"' then ['\\', '"'] else if c = '\n' then ['\\', 'n'] else basicChar c

/-- The inside of a basic string on several lines: of quotation marks in a row every third is
escaped, when `run` of them stand before the front. -/
def linesText : Nat → List Char → List Char
  | _, [] => []
  | run, c :: r =>
    if c = '"' then
      if run = 2 then '\\' :: '"' :: linesText 0 r else '"' :: linesText (run + 1) r
    else if c = '\n' then '\n' :: linesText 0 r
    else basicChar c ++ linesText 0 r

/-- The line break behind the opening marks of a string that has line breaks. -/
def openingBreak (s : List Char) : List Char :=
  if s.contains '\n' then ['\n'] else []

/-- A string with its marks. -/
def writeString (s : List Char) : List Char :=
  match formOf s with
  | .basic => '"' :: basicText s ++ ['"']
  | .literal => '\'' :: s ++ ['\'']
  | .basicLines => "\"\"\"".toList ++ openingBreak s ++ linesText 0 s ++ "\"\"\"".toList
  | .literalLines => "'''".toList ++ openingBreak s ++ s ++ "'''".toList

/-! ## Arrays and assignments -/

/-- An array of strings: one string stands on the line, several stand below each other. -/
def writeStrings : List String → List Char
  | [] => ['[', ']']
  | [s] => '[' :: writeString s.toList ++ [']']
  | ss =>
    "[\n".toList ++ ss.flatMap (fun s => "    ".toList ++ writeString s.toList ++ ",\n".toList)
      ++ [']']

/-- An assignment on a line of its own. -/
def writeAssignment (key : String) (value : List Char) : List Char :=
  key.toList ++ " = ".toList ++ value ++ ['\n']

end TestActor.Toml
