/-
Module: AnnotatedEnv.CommandLine.Arguments
Purpose: Reading the command line.
Main exports: Action, Invocation, UsageError, Invocation.ofArguments
Arguments are read from left to right, and the first fault decides. A value is checked only when
the next known option or operand of its level or the end is reached, so an argument that is out of
place there is reported before a faulty value in front of it.
-/
import AnnotatedEnv.Mode

namespace AnnotatedEnv

/-! ### Invocations -/

/-- What to do with a file. -/
inductive Action where
  /-- Print the model. -/
  | show (json : Bool)
  /-- Set one key and save. -/
  | set (key value : String)
  /-- Select a mode and save. -/
  | mode (id : ModeId)
  deriving DecidableEq, Repr

/-- A command line that makes sense. -/
structure Invocation where
  /-- The file with session options. -/
  config : Option String
  legacyOverwritten : Bool
  logJson : Bool
  file : String
  action : Action
  deriving DecidableEq, Repr

/-- Why a command line is not carried out. Asking for help or the version is among the reasons. -/
inductive UsageError where
  | help
  | version
  /-- Nothing is given at all. -/
  | nothingGiven
  | missingCommand
  | missingArgument
  | unknownCommand
  | unknownArgument
  /-- An option that stands for one choice is given twice. -/
  | repeatedOption
  /-- A value for an option that takes none. -/
  | needlessValue
  /-- An option without its value, or an empty file name. -/
  | emptyValue
  /-- A value that is no mode. -/
  | invalidMode
  deriving DecidableEq, Repr

namespace UsageError

def usage : String :=
  "Inspect annotated env files and switch between modes\n\n"
    ++ "Usage: envview [OPTIONS] <COMMAND>\n\n"
    ++ "Commands:\n"
    ++ "  show <FILE> [--json]       Print template, modes, value constraints and diagnostics\n"
    ++ "  set <FILE> <KEY> <VALUE>   Set one key and write the file\n"
    ++ "  mode <FILE> <SCOPE.MODE>   Apply a mode's overrides and write the file\n\n"
    ++ "Options:\n"
    ++ "      --config <CONFIG>      Session configuration file (TOML)\n"
    ++ "      --legacy-overwritten   Honor the deprecated @env-overwritten block\n"
    ++ "      --log-json             Emit logs as JSON on stderr\n"
    ++ "  -h, --help                 Print help\n"
    ++ "  -V, --version              Print version\n"

def message : UsageError → String
  | help => usage
  | version => ""
  | nothingGiven => usage
  | missingCommand => "error: a command is required\n"
  | missingArgument => "error: a required argument is missing\n"
  | unknownCommand => "error: unrecognized command\n"
  | unknownArgument => "error: unexpected argument\n"
  | repeatedOption => "error: an option is given more than once\n"
  | needlessValue => "error: a value is given for an option that takes none\n"
  | emptyValue => "error: a value is required\n"
  | invalidMode => "error: the mode is not of the form <scope>.<mode>\n"

end UsageError

/-! ### Commands -/

inductive Command where
  | show
  | set
  | mode
  deriving DecidableEq, Repr

namespace Command

def all : List Command := [.show, .set, .mode]

/-- The word that names a command. -/
def word : Command → String
  | .show => "show"
  | .set => "set"
  | .mode => "mode"

def ofWord? (w : String) : Option Command := all.find? (·.word = w)

/-- How many arguments without a dash a command takes. -/
def arity : Command → Nat
  | .show => 1
  | .set => 3
  | .mode => 2

end Command

/-! ### Options -/

inductive Flag where
  | config
  | legacyOverwritten
  | logJson
  | json
  | help
  | version
  deriving DecidableEq, Repr

namespace Flag

/-- The option of a long name. `command` is the command it stands behind: only `show` knows
`json`, and only the place in front of the command knows `version`. -/
def ofName? (command : Option Command) (name : String) : Option Flag :=
  if name = "config" then some config
  else if name = "legacy-overwritten" then some legacyOverwritten
  else if name = "log-json" then some logJson
  else if name = "help" then some help
  else if name = "json" ∧ command = some .show then some json
  else if name = "version" ∧ command = none then some version
  else none

/-- The option of a single letter. -/
def ofLetter? (command : Option Command) (c : Char) : Option Flag :=
  if c = 'h' then some help
  else if c = 'V' ∧ command = none then some version
  else none

end Flag

/-- The parts of an argument. -/
inductive Shape where
  /-- Two dashes alone: what follows is no option. -/
  | escape
  /-- Two dashes, a name, and perhaps a value behind `=`. -/
  | long (name : String) (value : Option String)
  /-- One dash and letters. -/
  | letters (cs : List Char)
  | plain
  deriving DecidableEq, Repr

/-- Tell the parts of an argument. A single dash is a plain argument. -/
def Shape.ofArgument (argument : String) : Shape :=
  match argument.toList with
  | ['-', '-'] => escape
  | '-' :: '-' :: cs =>
    let name := String.ofList (cs.takeWhile (· ≠ '='))
    match cs.dropWhile (· ≠ '=') with
    | _ :: value => long name (some (String.ofList value))
    | [] => long name none
  | ['-'] => plain
  | '-' :: cs => letters cs
  | _ => plain

/-! ### Reading one level -/

/-- A value that was read and is not checked yet. -/
inductive Pending where
  /-- An argument without a dash. -/
  | operand (value : String)
  /-- The value of `--config`; none if it is still to come. -/
  | config (value : Option String)
  deriving DecidableEq, Repr

/-- What is read in front of the command, or behind it. -/
structure Given where
  config : Option String := none
  legacyOverwritten : Bool := false
  logJson : Bool := false
  json : Bool := false
  /-- The checked arguments without a dash. -/
  operands : List String := []
  pending : Option Pending := none
  /-- `--` was read. -/
  escaped : Bool := false
  deriving DecidableEq, Repr

namespace Given

/-- How many arguments without a dash were read. -/
def count (g : Given) : Nat :=
  match g.pending with
  | some (.operand _) => g.operands.length + 1
  | _ => g.operands.length

/-- Whether the next argument is the value of `--config`. -/
def awaitsConfig (g : Given) : Bool := g.pending = some (.config none)

/-- Whether anything was given that counts. -/
def isEmpty (g : Given) : Bool :=
  g.config.isNone && !g.legacyOverwritten && !g.logJson && !g.json && g.operands.isEmpty

/-- Check an argument at its place: the file needs a name, and a mode two parts. -/
def checkOperand (command : Option Command) (place : Nat) (value : String) :
    Except UsageError Unit :=
  if place = 0 then if value = "" then .error .emptyValue else .ok ()
  else if command = some .mode ∧ place = 1 then
    match ModeId.ofText value with
    | .ok _ => .ok ()
    | .error _ => .error .invalidMode
  else .ok ()

/-- Take the value of `--config`, which may be given once. -/
def setConfig (g : Given) (value : String) : Except UsageError Given :=
  if g.config.isSome then .error .repeatedOption
  else if value = "" then .error .emptyValue
  else .ok { g with config := some value }

/-- Check what is pending. -/
def settle (command : Option Command) (g : Given) : Except UsageError Given :=
  match g.pending with
  | none => .ok g
  | some (.config none) => .error .emptyValue
  | some (.config (some value)) => { g with pending := none }.setConfig value
  | some (.operand value) =>
    match checkOperand command g.operands.length value with
    | .error e => .error e
    | .ok () => .ok { g with operands := g.operands ++ [value], pending := none }

/-- Take an option without a value. -/
def setFlag (g : Given) : Flag → Except UsageError Given
  | .config => .ok { g with pending := some (.config none) }
  | .legacyOverwritten =>
    if g.legacyOverwritten then .error .repeatedOption else .ok { g with legacyOverwritten := true }
  | .logJson => if g.logJson then .error .repeatedOption else .ok { g with logJson := true }
  | .json => if g.json then .error .repeatedOption else .ok { g with json := true }
  | .help => .error .help
  | .version => .error .version

/-- Take an argument without a dash: the value that `--config` waits for, or the next operand. -/
def addWord (command : Command) (g : Given) (value : String) : Except UsageError Given :=
  if g.awaitsConfig && !g.escaped then .ok { g with pending := some (.config (some value)) }
  else if g.count < command.arity then
    match g.settle (some command) with
    | .error e => .error e
    | .ok g => .ok { g with pending := some (.operand value) }
  else .error .unknownArgument

/-- Take a known option with what stands behind its `=`. -/
def addFlag (command : Option Command) (g : Given) : Flag → (value : Option String) →
    Except UsageError Given
  | .config, some value =>
    match g.settle command with
    | .error e => .error e
    | .ok g => g.setConfig value
  | _, some _ => .error .needlessValue
  | flag, none =>
    match g.settle command with
    | .error e => .error e
    | .ok g => g.setFlag flag

/-- Whether the next argument may begin with a dash and still be no option: the value of `set`. -/
def takesDashes (command : Option Command) (g : Given) : Bool :=
  command = some .set && g.count = 2

/-- Take an argument that is an option or `--`; an argument that is neither gives none. Options of
one letter take no value, and each of them ends the reading, so the first letter decides. -/
def addOption (command : Option Command) (g : Given) (argument : String) :
    Except UsageError (Option Given) :=
  match Shape.ofArgument argument with
  | .escape => .ok (some { g with escaped := true })
  | .plain => .ok none
  | .long name value =>
    match Flag.ofName? command name with
    | some flag => (g.addFlag command flag value).map some
    | none => if g.takesDashes command then .ok none else .error .unknownArgument
  | .letters cs =>
    if g.takesDashes command && cs.any fun c => (Flag.ofLetter? command c).isNone then .ok none
    else
      match cs.head?.bind (Flag.ofLetter? command) with
      | some flag => (g.addFlag command flag none).map some
      | none => .error .unknownArgument

end Given

/-! ### Reading the whole line -/

/-- Read the arguments behind a command. -/
def readBehind (command : Command) : Given → List String → Except UsageError Given
  | g, [] =>
    match g.settle (some command) with
    | .error e => .error e
    | .ok g => if g.operands.length < command.arity then .error .missingArgument else .ok g
  | g, argument :: rest =>
    let option := if g.escaped then .ok none else g.addOption (some command) argument
    match option with
    | .error e => .error e
    | .ok (some g) => readBehind command g rest
    | .ok none =>
      match g.addWord command argument with
      | .error e => .error e
      | .ok g => readBehind command g rest

/-- Whether a word names a command, `help` included. -/
def isCommandWord (w : String) : Bool := w = "help" || (Command.ofWord? w).isSome

/-- What `help` and the words behind it ask for: help on a command, or on `help` itself. -/
def helpRequest : List String → UsageError
  | [] => .help
  | [w] => if isCommandWord w then .help else .unknownCommand
  | _ => .unknownCommand

/-- Read the arguments in front of the command, then those behind it. What is pending in front of
the command is checked last. Behind `--` the word of a command is an argument out of place. -/
def readTop : Given → List String → Except UsageError (Given × Command × Given)
  | g, [] =>
    match g.settle none with
    | .error e => .error e
    | .ok g => .error (if g.isEmpty then .nothingGiven else .missingCommand)
  | g, argument :: rest =>
    if g.escaped then
      .error (if isCommandWord argument then .unknownArgument else .unknownCommand)
    else if !g.awaitsConfig && argument = "help" then .error (helpRequest rest)
    else
      match if g.awaitsConfig then none else Command.ofWord? argument with
      | some command =>
        match readBehind command {} rest with
        | .error e => .error e
        | .ok behind => (g.settle none).map (·, command, behind)
      | none =>
        match g.addOption none argument with
        | .error e => .error e
        | .ok (some g) => readTop g rest
        | .ok none =>
          if g.awaitsConfig then readTop { g with pending := some (.config (some argument)) } rest
          else .error .unknownCommand

/-- The action of a command with its checked arguments. -/
def Command.action? (command : Command) (json : Bool) : List String → Option (String × Action)
  | [file] => if command = .show then some (file, .show json) else none
  | [file, text] =>
    if command = .mode then (ModeId.ofText text).toOption.map (file, .mode ·) else none
  | [file, key, value] => if command = .set then some (file, .set key value) else none
  | _ => none

/-- Read a command line, the program's name left out. Of two values of `--config` the one behind
the command counts. -/
def Invocation.ofArguments (arguments : List String) : Except UsageError Invocation :=
  match readTop {} arguments with
  | .error e => .error e
  | .ok (top, command, g) =>
    match command.action? g.json g.operands with
    | none => .error .missingArgument
    | some (file, action) =>
      .ok
        { config := g.config.or top.config
          legacyOverwritten := top.legacyOverwritten || g.legacyOverwritten
          logJson := top.logJson || g.logJson
          file, action }

end AnnotatedEnv
