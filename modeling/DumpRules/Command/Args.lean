/-!
The arguments of the command line.

A command has one manifest and options. The value of an option follows it, in the same argument
behind `=` or in the next one; the next argument is no value if it starts with a dash, unless it is
just a dash. Options other than `--flag` are given at most once. Behind `--` every argument is a
manifest.
-/

namespace DumpRules

set_option autoImplicit false

/-- The commands that take a manifest. -/
inductive CommandName where
  | check
  | lint
deriving DecidableEq

/-- The options of a command, as given. -/
structure Options where
  manifest : String
  format : String := "text"
  /-- Allows phases to be worked out at the same time, which no result depends on. -/
  parallel : Bool := false
  flags : List String := []
  out : Option String := none
deriving DecidableEq

/-- What is asked for. -/
inductive Invocation where
  | run (command : CommandName) (options : Options)
  | help
  | version
deriving DecidableEq

/-- Why arguments are refused. -/
inductive UsageError where
  | noCommand
  | unknownCommand (name : String)
  | unexpected (argument : String)
  | missingValue (option : String)
  | repeated (option : String)
  | noManifest
deriving DecidableEq

/-- The text of the message. -/
def UsageError.message : UsageError → String
  | noCommand => "a command is required: check, lint or help"
  | unknownCommand name => s!"unrecognized subcommand '{name}'"
  | unexpected argument => s!"unexpected argument '{argument}' found"
  | missingValue option => s!"a value is required for '{option}' but none was supplied"
  | repeated option => s!"the argument '{option}' cannot be used multiple times"
  | noManifest => "the following required arguments were not provided: <MANIFEST>"

/-- Options being collected. -/
structure Collected where
  manifest : Option String := none
  format : Option String := none
  parallel : Bool := false
  flags : List String := []
  out : Option String := none

namespace Collected

/-- Takes an argument that is no option. -/
def positional (c : Collected) (a : String) : Except UsageError Collected :=
  if a.isEmpty then .error (.missingValue "<MANIFEST>")
  else if c.manifest.isSome then .error (.unexpected a)
  else .ok { c with manifest := some a }

/-- Takes arguments that are no options. -/
def positionals (c : Collected) : List String → Except UsageError Collected
  | [] => .ok c
  | a :: later =>
    match c.positional a with
    | .ok c => c.positionals later
    | .error e => .error e

/-- Takes an option with its value; `none` if there is no such option. -/
def valued (c : Collected) (command : CommandName) (name value : String) :
    Option (Except UsageError Collected) :=
  match name, command with
  | "format", _ =>
    some (if c.format.isSome then .error (.repeated "--format")
      else .ok { c with format := some value })
  | "flag", _ => some (.ok { c with flags := c.flags ++ [value] })
  | "out", .check =>
    some (if value.isEmpty then .error (.missingValue "--out")
      else if c.out.isSome then .error (.repeated "--out")
      else .ok { c with out := some value })
  | _, _ => none

/-- Takes the option that has no value. -/
def parallelOption (c : Collected) : Except UsageError Collected :=
  if c.parallel then .error (.repeated "--parallel") else .ok { c with parallel := true }

/-- The options, once all arguments are taken. -/
def options (c : Collected) : Except UsageError Options :=
  match c.manifest with
  | none => .error .noManifest
  | some manifest =>
    .ok { manifest, format := c.format.getD "text", parallel := c.parallel, flags := c.flags,
          out := c.out }

end Collected

/-- Whether an argument cannot be the value of the option before it. -/
def looksLikeOption (a : String) : Bool :=
  match a.toList with
  | '-' :: _ :: _ => true
  | _ => false

/-- Whether an option takes a value. -/
def takesValue (command : CommandName) (name : String) : Bool :=
  name == "format" || name == "flag" || (name == "out" && command == .check)

/-- Takes the arguments of a command; `none` if help is asked for. -/
def collect (command : CommandName) (c : Collected) :
    List String → Except UsageError (Option Collected)
  | [] => .ok (some c)
  | a :: later =>
    match a.toList with
    | ['-', '-'] => (c.positionals later).map some
    | '-' :: '-' :: long =>
      let name := String.ofList (long.takeWhile (· ≠ '='))
      match long.dropWhile (· ≠ '=') with
      | _ :: value =>
        match c.valued command name (String.ofList value) with
        | some (.ok c) => collect command c later
        | some (.error e) => .error e
        | none => .error (.unexpected a)
      | [] =>
        if name == "help" then .ok none
        else if name == "parallel" && command == .check then
          match c.parallelOption with
          | .ok c => collect command c later
          | .error e => .error e
        else if takesValue command name then
          match later with
          | [] => .error (.missingValue a)
          | value :: later =>
            if looksLikeOption value then .error (.missingValue a)
            else
              match c.valued command name value with
              | some (.ok c) => collect command c later
              | some (.error e) => .error e
              | none => .error (.unexpected a)
        else .error (.unexpected a)
    | '-' :: 'h' :: _ => .ok none
    | '-' :: _ :: _ => .error (.unexpected a)
    | _ =>
      match c.positional a with
      | .ok c => collect command c later
      | .error e => .error e

/-- What the arguments of a command ask for. -/
def Invocation.ofCommand (command : CommandName) (args : List String) :
    Except UsageError Invocation :=
  match collect command {} args with
  | .error e => .error e
  | .ok none => .ok .help
  | .ok (some c) => c.options.map (.run command)

/-- What some arguments ask for. -/
def Invocation.ofArgs : List String → Except UsageError Invocation
  | [] => .error .noCommand
  | "check" :: args => ofCommand .check args
  | "lint" :: args => ofCommand .lint args
  | ["help"] | ["--help"] | ["help", "check"] | ["help", "lint"] | ["help", "help"] => .ok .help
  | "--help" :: _ => .ok .help
  | "--version" :: _ => .ok .version
  | "help" :: a :: _ => .error (.unknownCommand a)
  | a :: _ =>
    match a.toList with
    | '-' :: 'h' :: _ => .ok .help
    | '-' :: 'V' :: _ => .ok .version
    | '-' :: _ :: _ => .error (.unexpected a)
    | _ => .error (.unknownCommand a)

end DumpRules
