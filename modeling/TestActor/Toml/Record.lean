import TestActor.Toml.Document

/-!
# Records in TOML values

A record is written as a table of its fields, or as an array of them in their order with some left
out at the end. A value is only taken for what it is: a number is no string, and a string is no
truth value.

Entries of other names are passed over, but a number in them has to be one that can be read. Items
of an array behind those of the fields are not looked at, so there any number of the right form
may stand.
-/

namespace TestActor.Toml

/-! ## Values -/

/-- The text of a string. -/
def Value.text? : Value → Option String
  | .string text => some text
  | _ => none

/-- A truth value. -/
def Value.truth? : Value → Option Bool
  | .boolean truth => some truth
  | _ => none

/-- The items of an array, each read the same way. -/
def Value.listOf? {α : Type} (item : Value → Option α) : Value → Option (List α)
  | .array _ items => items.mapM item
  | _ => none

/-- A name that is written as a string, or as a table of one entry that is empty. -/
def Value.variant? : Value → Option String
  | .string name => some name
  | .table _ [(name, .table _ [])] => some name
  | .table _ [(name, .array _ [])] => some name
  | _ => none

/-! ## Numbers that are passed over -/

mutual

/-- Can every number in a value be read? -/
def Value.isReadable : Value → Bool
  | .integer lexeme => (integer? lexeme.toList).isSome
  | .float lexeme => isUsableFloat lexeme.toList
  | .array _ items => Value.areReadable items
  | .table _ entries => Entries.areReadable entries
  | .string _ | .boolean _ | .moment _ => true

/-- Can every number in a list of values be read? -/
def Value.areReadable : List Value → Bool
  | [] => true
  | item :: items => item.isReadable && Value.areReadable items

/-- Can every number in the values of a table be read? -/
def Entries.areReadable : List (String × Value) → Bool
  | [] => true
  | (_, value) :: entries => value.isReadable && Entries.areReadable entries

end

/-! ## Fields -/

/-- The values of a record by field. -/
abbrev Fields := String → Option Value

/-- The fields of a record that is written as a table. Entries of other names are passed over, but
they have to be readable. -/
def Entries.fields? (names : List String) (entries : Entries) : Option Fields :=
  if areReadable (entries.filter fun entry => !names.contains entry.1) then
    some fun name => entries.lookup name
  else none

/-- The fields of a record whose field names in order are `names`. Items of an array behind those
of the fields are never looked at. -/
def Value.fields? (names : List String) : Value → Option Fields
  | .table _ entries => Entries.fields? names entries
  | .array _ items => some fun name => (names.zip items).lookup name
  | _ => none

/-- A field that has to be there. -/
def Fields.required {α : Type} (fields : Fields) (name : String) (read : Value → Option α) :
    Option α :=
  (fields name).bind read

/-- A field that may be missing. -/
def Fields.optional {α : Type} (fields : Fields) (name : String) (read : Value → Option α) :
    Option (Option α) :=
  match fields name with
  | none => some none
  | some value => (read value).map some

/-- A field that has a default. -/
def Fields.withDefault {α : Type} (fields : Fields) (name : String) (default : α)
    (read : Value → Option α) : Option α :=
  match fields name with
  | none => some default
  | some value => read value

end TestActor.Toml
