import TestActor.Manifest
import TestActor.Toml.Record

/-!
# Reading manifests

A manifest file is a TOML document with the arrays `modules` and `types`.
-/

namespace TestActor

open Toml

/-- Reads a visibility. -/
def Visibility.ofValue? (value : Value) : Option Visibility := do
  let name ← value.variant?
  [("public", isPublic), ("protected", isProtected), ("private", isPrivate)].lookup name

/-- Reads a declared parameter. -/
def ParameterDecl.ofValue? (value : Value) : Option ParameterDecl := do
  let fields ← value.fields? ["name", "default"]
  return {
    name := ← fields.required "name" Value.text?
    default := ← fields.optional "default" Value.text? }

/-- Reads a declared method. -/
def MethodDecl.ofValue? (value : Value) : Option MethodDecl := do
  let fields ← value.fields? ["name", "doc", "params", "visibility"]
  return {
    name := ← fields.required "name" Value.text?
    doc := ← fields.optional "doc" Value.text?
    params := ← fields.withDefault "params" [] (Value.listOf? ParameterDecl.ofValue?)
    visibility := ← fields.withDefault "visibility" .isPublic Visibility.ofValue? }

/-- Reads a declared type. -/
def TypeDecl.ofValue? (value : Value) : Option TypeDecl := do
  let fields ← value.fields? ["name", "parent", "interfaces", "methods"]
  return {
    name := ← fields.required "name" Value.text?
    parent := ← fields.optional "parent" Value.text?
    interfaces := ← fields.withDefault "interfaces" [] (Value.listOf? Value.text?)
    methods := ← fields.withDefault "methods" [] (Value.listOf? MethodDecl.ofValue?) }

/-- Reads a module that can be configured. -/
def ModuleEntry.ofValue? (value : Value) : Option ModuleEntry := do
  let fields ← value.fields?
    ["name", "type", "include_inherited", "only_actions", "exclude_actions"]
  return {
    name := ← fields.required "name" Value.text?
    typeName := ← fields.required "type" Value.text?
    includeInherited := ← fields.withDefault "include_inherited" true Value.truth?
    onlyActions := ← fields.withDefault "only_actions" [] (Value.listOf? Value.text?)
    excludeActions := ← fields.withDefault "exclude_actions" [] (Value.listOf? Value.text?) }

/-- Reads what a manifest file lists. -/
def ManifestFile.ofEntries? (entries : Entries) : Option ManifestFile := do
  let fields ← entries.fields? ["modules", "types"]
  return {
    modules := ← fields.withDefault "modules" [] (Value.listOf? ModuleEntry.ofValue?)
    types := ← fields.withDefault "types" [] (Value.listOf? TypeDecl.ofValue?) }

/-- Why a text is no manifest. -/
inductive ManifestError where
  | toml (error : Toml.Error)
  | fault (fault : ManifestFault)
  deriving DecidableEq

/-- What a manifest text lists. -/
def ManifestFile.ofText (text : String) : Except Toml.Error ManifestFile := do
  let entries ← Toml.parse text
  match ofEntries? entries with
  | none => .error .shape
  | some file => .ok file

/-- The manifest that a text describes. -/
def Manifest.ofText (text : String) : Except ManifestError Manifest := do
  let file ← (ManifestFile.ofText text).mapError .toml
  (ofFile file).mapError .fault

end TestActor
