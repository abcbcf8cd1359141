/-!
# TOML values

A document is a table of named values. A table and an array remember how they came to be, because
that decides whether a later line of the document may add to them.

## What may be added to

* A table written as a value, in braces, takes nothing more; nor does an array written in brackets.
* A table that a header opens takes the lines below the header, and tables under longer headers.
* A table that only stands in the way of a longer header may be opened by a header of its own.
* A table that dotted keys make takes more dotted keys of the same section.
-/

namespace TestActor.Toml

/-- How a table or an array came to be. -/
inductive Origin where
  /-- Written as a value. -/
  | value
  /-- Opened by a header of its own. -/
  | header
  /-- On the way to a longer header. -/
  | implied
  /-- On the way to the last part of a dotted key. -/
  | dotted
  deriving DecidableEq

/-- A value of a document. -/
inductive Value where
  | string (text : String)
  /-- An integer as it is written. -/
  | integer (lexeme : String)
  /-- A float as it is written. -/
  | float (lexeme : String)
  | boolean (truth : Bool)
  /-- A date, a time or both, as it is written. -/
  | moment (lexeme : String)
  | array (origin : Origin) (items : List Value)
  | table (origin : Origin) (entries : List (String × Value))

/-- The named values of a table, each name once. -/
abbrev Entries := List (String × Value)

/-- A dotted key: its last part and the parts before it. -/
structure Key where
  parents : List String
  last : String
  deriving DecidableEq

/-- A key with the value that it is given. -/
structure Assignment where
  key : Key
  value : Value

/-! ## Adding to a table -/

/-- Gives a name that is there another value. -/
def Entries.update (entries : Entries) (name : String) (value : Value) : Entries :=
  entries.map fun entry => if entry.1 == name then (name, value) else entry

/-- Follows names down from a table and acts on the table that they lead to. A name that is not
there leads to a new table of the origin `made`; the name of an array of tables leads to its last
table. Tables written as values are closed, and a dotted key does not go into a table with a
header. -/
def descend (made : Origin) (act : Origin → Entries → Option Entries) :
    List String → Origin → Entries → Option Entries
  | [], origin, entries => act origin entries
  | name :: names, _, entries =>
    match entries.lookup name with
    | none => do
      let inner ← descend made act names made []
      return entries ++ [(name, .table made inner)]
    | some (.table origin inner) =>
      if origin = .value ∨ (made = .dotted ∧ origin = .header) then none
      else do
        let inner ← descend made act names origin inner
        return entries.update name (.table origin inner)
    | some (.array .header items) =>
      match items.getLast? with
      | some (.table origin inner) => do
        let inner ← descend made act names origin inner
        return entries.update name (.array .header (items.dropLast ++ [.table origin inner]))
      | _ => none
    | some _ => none

/-- Adds a value under a new name. A dotted key ends in a table of dotted keys and a plain key in
one of another kind. -/
def add (dotted : Bool) (name : String) (value : Value) (origin : Origin) (entries : Entries) :
    Option Entries :=
  if decide (origin = .dotted) != dotted || (entries.lookup name).isSome then none
  else some (entries ++ [(name, value)])

/-- Performs an assignment in a table of the given origin. -/
def assign (origin : Origin) (entries : Entries) (a : Assignment) : Option Entries :=
  descend .dotted (add (!a.key.parents.isEmpty) a.key.last a.value) a.key.parents origin entries

/-- Performs assignments in order. -/
def assignAll (origin : Origin) (entries : Entries) (assignments : List Assignment) :
    Option Entries :=
  assignments.foldlM (assign origin) entries

end TestActor.Toml
