import TestActor.Text.Unseen

/-!
# Quoted names

A name that a message quotes is written between quotation marks so that its ends and its unseen
characters can be told: a quotation mark, a backslash and the common controls get a backslash, and
any other character that cannot be printed alone is written by its number in braces.
-/

namespace TestActor.Text

/-- What is written for one character of a quoted name. -/
def quotedChar (c : Char) : List Char :=
  if c = '"' then ['\\', '"']
  else if c = '\\' then ['\\', '\\']
  else if c = '\t' then ['\\', 't']
  else if c = '\n' then ['\\', 'n']
  else if c = '\r' then ['\\', 'r']
  else if c = '\x00' then ['\\', '0']
  else if isUnseen c then ['\\', 'u', '\x7b'] ++ Nat.toDigits 16 c.toNat ++ ['\x7d']
  else [c]

/-- A name between quotation marks. -/
def quoted (name : String) : String :=
  String.ofList ('"' :: name.toList.flatMap quotedChar ++ ['"'])

end TestActor.Text
