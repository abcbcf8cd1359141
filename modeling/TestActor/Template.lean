import TestActor.GenerateError

/-!
# Templates

A template is fixed text with placeholders. Filling it in puts a value in the place of every
placeholder, as it is: a value is not searched for placeholders and nothing in it is escaped.
A placeholder without a value makes the whole fail, at the first such placeholder and with the
line on which it stands.
-/

namespace TestActor

/-- A part of a template. -/
inductive Piece where
  | text (fixed : String)
  | slot (key : String)
  deriving DecidableEq

/-- A named template. -/
structure Template where
  name : String
  pieces : List Piece
  deriving DecidableEq

/-- Values for placeholders; the first value of a key counts. -/
abbrev Values := List (String × String)

namespace Template

/-- The number of line breaks in a text. -/
def lineBreaks (s : String) : Nat :=
  s.toList.count '\n'

/-- The text that the pieces give, or the line of the first placeholder without a value, when the
first piece starts on `line`. -/
def fill (values : Values) : Nat → List Piece → Except Nat String
  | _, [] => .ok ""
  | line, .text fixed :: rest =>
    (fill values (line + lineBreaks fixed) rest).map (fixed ++ ·)
  | line, .slot key :: rest =>
    match values.lookup key with
    | none => .error line
    | some value => (fill values line rest).map (value ++ ·)

/-- Fills in a template; its lines are counted from one. -/
def render (template : Template) (values : Values) : Except GenerateError String :=
  (fill values 1 template.pieces).mapError fun line =>
    .template template.name (.undefinedValue line)

/-! ## The two templates -/

/-- A forwarding method. -/
def method : Template where
  name := "method"
  pieces := [
    .text "\n    /**\n     * [!] Method is generated. Documentation taken from corresponding module.\n",
    .text "     *\n     ", .slot "doc",
    .text "\n     * @see \\", .slot "module", .text "::", .slot "method",
    .text "()\n     */\n    public function ", .slot "action", .text "(", .slot "params",
    .text ") \x7b\n        return $this->getScenario()->runStep(new \\Codeception\\Step\\",
    .slot "step", .text "('", .slot "method", .text "', func_get_args()));\n    \x7d"]

/-- The generated file. -/
def actions : Template where
  name := "actions"
  pieces := [
    .text "<?php  //[STAMP] ", .slot "hash", .text "\nnamespace ", .slot "namespace_prefix",
    .text "_generated;\n\n",
    .text "// This file is generated by `actiongen build` from the configured modules.\n",
    .text "// Do not edit it by hand: it is overwritten on the next build.\n",
    .text "// @codingStandardsIgnoreFile\n\n", .slot "imports", .text "\n\ntrait ", .slot "name",
    .text "Actions\n\x7b\n    /**\n     * @return \\Codeception\\Scenario\n     */\n",
    .text "    abstract protected function getScenario();\n\n   ", .slot "methods", .text "\n\x7d"]

/-- The template of a given name. -/
def ofName? (name : String) : Option Template :=
  [actions, method].find? (·.name == name)

/-- Fills in the template of a given name. -/
def renderNamed (name : String) (values : Values) : Except GenerateError String :=
  match ofName? name with
  | none => .error (.template name .notFound)
  | some template => template.render values

end Template

end TestActor
