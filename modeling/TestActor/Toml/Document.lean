import TestActor.Toml.Expression

/-!
# TOML documents

The lines before the first header belong to the document's own table and the lines behind a header
to the table that it opens. A header opens a table that is not there yet, or one that only stood
in the way of longer headers; a header of an array of tables adds a table to the array.
-/

namespace TestActor.Toml

/-- Lines that belong to one table: the header that opens it, and the assignments below. -/
structure Section where
  isArray : Bool
  key : Key
  assignments : List Assignment

/-- The assignments up to the first header, and the sections behind it. -/
def sections : List Expression → List Assignment × List Section
  | [] => ([], [])
  | .assignment a :: rest => (a :: (sections rest).1, (sections rest).2)
  | .header key :: rest => ([], ⟨false, key, (sections rest).1⟩ :: (sections rest).2)
  | .arrayHeader key :: rest => ([], ⟨true, key, (sections rest).1⟩ :: (sections rest).2)

/-- The table that a header opens, with the assignments below it. -/
def openTable (name : String) (assignments : List Assignment) (entries : Entries) :
    Option Entries :=
  match entries.lookup name with
  | none => do
    let inner ← assignAll .header [] assignments
    return entries ++ [(name, .table .header inner)]
  | some (.table .implied inner) => do
    let inner ← assignAll .header inner assignments
    return entries.update name (.table .header inner)
  | some _ => none

/-- The table that a header adds to an array, with the assignments below it. -/
def pushTable (name : String) (assignments : List Assignment) (entries : Entries) :
    Option Entries := do
  let inner ← assignAll .header [] assignments
  match entries.lookup name with
  | none => return entries ++ [(name, .array .header [.table .header inner])]
  | some (.array .header items) =>
    return entries.update name (.array .header (items ++ [.table .header inner]))
  | some _ => none

/-- Adds a section to the document. -/
def addSection (entries : Entries) (s : Section) : Option Entries :=
  let act := if s.isArray then pushTable else openTable
  descend .implied (fun _ inner => act s.key.last s.assignments inner) s.key.parents .header entries

/-- The table that the expressions of a document make. -/
def ofExpressions (es : List Expression) : Option Entries := do
  let (first, rest) := sections es
  let entries ← assignAll .header [] first
  rest.foldlM addSection entries

/-- The text without a byte order mark at its front. -/
def withoutMark : List Char → List Char
  | '\uFEFF' :: r => r
  | s => s

/-- Why a text cannot be used as a document. -/
inductive Error where
  /-- The text does not follow the grammar. -/
  | grammar
  /-- A key or a header defines something again. -/
  | redefinition
  /-- A value is missing or is not of the kind that is asked for. -/
  | shape
  deriving DecidableEq

/-- The wording of an error. -/
def Error.message : Error → String
  | grammar => "TOML parse error: the text does not follow the grammar"
  | redefinition => "TOML parse error: a key is defined more than once"
  | shape => "TOML parse error: a value is missing or not of the expected kind"

/-- The table of a document. -/
def parse (text : String) : Except Error Entries :=
  match expressions (withoutMark text.toList) with
  | none => .error .grammar
  | some es =>
    match ofExpressions es with
    | none => .error .redefinition
    | some entries => .ok entries

end TestActor.Toml
