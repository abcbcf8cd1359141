import TestActor.Config
import TestActor.Toml.Record
import TestActor.Toml.Writer

/-!
# Reading and writing configurations

A configuration file is a TOML document. Every field has a default, and fields of other names are
passed over. A configuration is written with all its fields, the output only when it is set.
-/

namespace TestActor

open Toml

/-- Reads a path. -/
def Path.ofValue? (value : Value) : Option Path :=
  value.text?.map Path.mk

namespace Config

/-- Reads the fields of a configuration. -/
def ofEntries? (entries : Entries) : Option Config := do
  let fields ← entries.fields? ["class_name", "namespace", "modules", "manifest", "output"]
  let default : Config := {}
  return {
    className := ← fields.withDefault "class_name" default.className Value.text?
    nspace := ← fields.withDefault "namespace" default.nspace Value.text?
    modules := ← fields.withDefault "modules" default.modules (Value.listOf? Value.text?)
    manifest := ← fields.withDefault "manifest" default.manifest Path.ofValue?
    output := ← fields.optional "output" Path.ofValue? }

/-- The configuration that a text describes. -/
def ofText (text : String) : Except Toml.Error Config := do
  let entries ← Toml.parse text
  match ofEntries? entries with
  | none => .error .shape
  | some config => .ok config

/-- A configuration as the text of a file. -/
def toText (config : Config) : String :=
  let string (key value : String) := writeAssignment key (writeString value.toList)
  let output := match config.output with
    | none => []
    | some path => string "output" path.text
  String.ofList <|
    string "class_name" config.className ++ string "namespace" config.nspace
      ++ writeAssignment "modules" (writeStrings config.modules)
      ++ string "manifest" config.manifest.text ++ output ++ ['\n']

end Config

end TestActor
