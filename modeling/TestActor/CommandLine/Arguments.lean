import TestActor.Path

/-!
# Command-line arguments

A command line names a command, with options before and behind it. Options before the command are
read at the level of the program and options behind it at the level of the command. The option for
the configuration file is known at both levels and counts once at each; what stands behind the
command wins.

## Reading

The arguments are read from the left, and the first one that does not fit decides. A request for
help or for the version ends the reading at once.
-/

namespace TestActor.CommandLine

/-- What the program can do with a project. -/
inductive Command where
  | build
  | check
  | fingerprint
  | actions
  deriving DecidableEq

/-- The word for a command. -/
def Command.word : Command → String
  | build => "build"
  | check => "check"
  | fingerprint => "fingerprint"
  | actions => "actions"

/-- All commands. -/
def Command.all : List Command := [.build, .check, .fingerprint, .actions]

/-- The command of a word. -/
def Command.ofWord? (word : String) : Option Command :=
  all.find? (·.word == word)

/-- What a command line asks for. -/
inductive Request where
  | run (command : Command) (config : Path) (force : Bool)
  | version
  | help (command : Option Command)
  deriving DecidableEq

/-- What is read at one level. -/
structure Options where
  config : Option String := none
  force : Bool := false
  deriving DecidableEq

/-- What an argument with a dash asks for at one level. -/
inductive Flag where
  | help
  | version
  | force
  /-- With the value when it is part of the argument. -/
  | config (value : Option String)
  deriving DecidableEq

/-! ## Single arguments -/

/-- The text behind an equals sign, or the whole text. -/
def withoutEquals : List Char → List Char
  | '=' :: r => r
  | s => s

/-- The flags of a cluster of letters behind one dash. The letter for the configuration file takes
the rest of the cluster as its value. -/
def shortFlags (command : Option Command) : List Char → Option (List Flag)
  | [] => some []
  | 'c' :: r => some [.config (if r.isEmpty then none else some (String.ofList (withoutEquals r)))]
  | 'h' :: _ => some [.help]
  | 'V' :: _ => if command.isNone then some [.version] else none
  | 'f' :: r => if command = some .build then (shortFlags command r).map (.force :: ·) else none
  | _ => none

/-- The flag of a word behind two dashes. -/
def longFlag (command : Option Command) (word : List Char) : Option Flag :=
  let name := String.ofList (word.takeWhile (· != '='))
  let value := word.dropWhile (· != '=')
  if name = "config" then
    some (.config (if value.isEmpty then none else some (String.ofList (value.drop 1))))
  else if !value.isEmpty then none
  else if name = "help" then some .help
  else if name = "version" ∧ command.isNone then some .version
  else if name = "force" ∧ command = some .build then some .force
  else none

/-- What an argument is. -/
inductive Argument where
  /-- Two dashes alone: everything behind them is a value. -/
  | separator
  | flags (flags : List Flag)
  | plain (text : String)
  | unknown
  deriving DecidableEq

/-- Reads one argument. -/
def argument (command : Option Command) (text : String) : Argument :=
  match text.toList with
  | ['-', '-'] => .separator
  | '-' :: '-' :: word => match longFlag command word with
    | some flag => .flags [flag]
    | none => .unknown
  | '-' :: c :: letters => match shortFlags command (c :: letters) with
    | some flags => .flags flags
    | none => .unknown
  | _ => .plain text

/-! ## Levels -/

/-- What the flags of one argument come to. -/
inductive Effect where
  | go (options : Options)
  /-- The next argument is the value of the option for the configuration file. -/
  | awaitConfig (options : Options)
  | version
  | help
  | refused
  deriving DecidableEq

/-- Takes a value for the configuration file: not an empty one, and not a second one. -/
def Options.withConfig (options : Options) (value : String) : Option Options :=
  if value.isEmpty ∨ options.config.isSome then none else some { options with config := some value }

/-- Applies the flags of one argument, in order. -/
def Options.apply (options : Options) : List Flag → Effect
  | [] => .go options
  | .help :: _ => .help
  | .version :: _ => .version
  | .force :: rest => if options.force then .refused else { options with force := true }.apply rest
  | .config none :: _ => .awaitConfig options
  | .config (some value) :: rest =>
    match options.withConfig value with
    | none => .refused
    | some options => options.apply rest

/-- The request for help on a command, or on the program: nothing stands behind the command's
word. -/
def helpOn : List String → Option Request
  | [] => some (.help none)
  | [word] =>
    if word = "help" then some (.help none)
    else (Command.ofWord? word).map fun command => .help (some command)
  | _ => none

/-- The configuration file unless another is named. -/
def defaultConfig : String := "actiongen.toml"

/-- The request for a command, with the options before and behind its word. -/
def request (outer inner : Options) (command : Command) : Request :=
  .run command ⟨(inner.config.or outer.config).getD defaultConfig⟩ inner.force

/-- Reads arguments at one level: that of a command, or of the program with the options before the
command. Nothing is given for arguments that do not fit. -/
def readLevel (outer : Options) : Option Command → Options → List String → Option Request
  | none, _, [] => none
  | some command, options, [] => some (request outer options command)
  | command, options, text :: rest =>
    match argument command text with
    | .unknown => none
    | .separator =>
      match command, rest with
      | some command, [] => some (request outer options command)
      | _, _ => none
    | .plain word =>
      match command with
      | some _ => none
      | none =>
        if word = "help" then helpOn rest
        else match Command.ofWord? word with
          | none => none
          | some found => readLevel options (some found) {} rest
    | .flags flags =>
      match options.apply flags with
      | .refused => none
      | .version => some .version
      | .help => some (.help command)
      | .go options => readLevel outer command options rest
      | .awaitConfig options =>
        match rest with
        | [] => none
        | value :: rest =>
          match argument command value with
          | .plain value =>
            match options.withConfig value with
            | none => none
            | some options => readLevel outer command options rest
          | _ => none

/-- Reads a command line. -/
def parse (arguments : List String) : Option Request :=
  readLevel {} none {} arguments

end TestActor.CommandLine
