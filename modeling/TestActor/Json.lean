import TestActor.Text.Hex

/-!
# JSON text of names

Only strings, lists of strings and objects with string values are written, without any blank
between the parts. The text is hashed, so every character of it counts.

## Escapes

A quotation mark and a backslash get a backslash; the controls with a letter of their own use it
(`\b`, `\t`, `\n`, `\f`, `\r`) and the other ones below the space are written `\u00xx` in lower
case. Everything else stands as it is.
-/

namespace TestActor.Json

open Text

/-- What is written for one character inside a string. -/
def escape (c : Char) : List Char :=
  if c = '"' then ['\\', '"']
  else if c = '\\' then ['\\', '\\']
  else if c = '\x08' then ['\\', 'b']
  else if c = '\t' then ['\\', 't']
  else if c = '\n' then ['\\', 'n']
  else if c = '\x0c' then ['\\', 'f']
  else if c = '\r' then ['\\', 'r']
  else if c.toNat < 0x20 then
    ['\\', 'u', '0', '0', hexDigit (c.toNat / 16), hexDigit (c.toNat % 16)]
  else [c]

/-- A string between quotation marks. -/
def quote (s : String) : List Char :=
  '"' :: s.toList.flatMap escape ++ ['"']

/-- Texts with a comma between neighbours. -/
def commaSeparated (items : List (List Char)) : List Char :=
  [','].intercalate items

/-- A list of strings. -/
def ofStrings (names : List String) : List Char :=
  '[' :: commaSeparated (names.map quote) ++ [']']

/-- An object with string values, its members in the order of the list. -/
def ofPairs (members : List (String × String)) : List Char :=
  '\x7b' :: commaSeparated (members.map fun (key, value) => quote key ++ ':' :: quote value)
    ++ ['\x7d']

end TestActor.Json
