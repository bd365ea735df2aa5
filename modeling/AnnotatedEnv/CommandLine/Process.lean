/-
Module: AnnotatedEnv.CommandLine.Process
Purpose: The program as a whole: exit status, output and log.
Main exports: ProcessResult, runProcess, Event.json, Event.line
-/
import AnnotatedEnv.CommandLine.Run
import AnnotatedEnv.LogFilter

namespace AnnotatedEnv

/-! ### Log lines -/

def Field.json : Field → Json
  | number n => .nat n
  | text s => .string s

def Event.json (e : Event) : Json :=
  .object
    [("level", .string e.level.label),
     ("fields", .object (("message", .string e.message) :: e.fields.map fun (k, v) => (k, v.json))),
     ("target", .string e.source.label)]

/-- The value of a field for people. -/
def Field.shown : Field → String
  | number n => toString n
  | text s => s

/-- An event on one line for people. -/
def Event.line (e : Event) : String :=
  e.level.label ++ " " ++ e.source.label ++ ": " ++ e.message
    ++ String.join (e.fields.map fun (k, v) => " " ++ k ++ "=" ++ v.shown)

/-! ### Error output -/

/-- The lines of one cause. Its first line stands behind `first`, further ones behind blanks. -/
def causeLines (first further message : String) : List String :=
  match (Text.pieces (· = '\n') message.toList).map String.ofList with
  | [] => [first]
  | l :: ls => (first ++ l) :: ls.map (further ++ ·)

/-- The causes behind a failure, numbered from `i` on. -/
def numberedCauses : (i : Nat) → List String → List String
  | _, [] => []
  | i, c :: cs =>
    let number := toString i
    let padding := String.ofList (List.replicate (5 - number.length) ' ')
    causeLines (padding ++ number ++ ": ") "       " c ++ numberedCauses (i + 1) cs

/-- The lines that tell of a failure. A single cause has no number. -/
def Failure.lines (f : Failure) : List String :=
  match f.chain with
  | [] => ["Error: "]
  | message :: causes =>
    causeLines "Error: " "" message
      ++ match causes with
        | [] => []
        | [c] => ["", "Caused by:"] ++ causeLines "    " "    " c
        | cs => ["", "Caused by:"] ++ numberedCauses 0 cs

/-- The text that tells of a failure; each of its lines is ended. -/
def Failure.text (f : Failure) : String := String.join (f.lines.map (· ++ "\n"))

/-! ### The program -/

/-- What the program leaves behind. -/
structure ProcessResult where
  code : Nat
  disk : Disk
  /-- The text that the output took; none if the command line itself was answered with help or a
  usage error. -/
  stdout : Option String
  /-- The events that the log shows. -/
  log : List Event := []
  /-- Whether the log is written as JSON. -/
  logJson : Bool := false
  /-- The error output behind the log. -/
  stderr : String := ""

/-- The line that tells the version. -/
def versionLine : String := "envview 0.1.0\n"

/-- The filter that a choice gives; none or an unreadable one gives the standard. -/
def filterOf (choice : Option String) : LogFilter :=
  (choice.bind LogFilter.ofText?).getD .standard

/-- Run the program in a working directory. `choice` is the log filter asked for. -/
def runProcess (disk : Disk) (arguments : List String) (choice : Option String)
    (out : Output := .accepting) : ProcessResult :=
  match Invocation.ofArguments arguments with
  | .error .help => { code := 0, disk, stdout := none }
  | .error .version => { code := 0, disk, stdout := some versionLine }
  | .error _ => { code := 2, disk, stdout := none }
  | .ok inv =>
    let done := inv.run disk out
    let log := done.events.filter (filterOf choice).admits
    match done.result with
    | .ok text => { code := 0, disk := done.disk, stdout := some text, log, logJson := inv.logJson }
    | .error f =>
      { code := 1, disk := done.disk, stdout := some "", log, logJson := inv.logJson
        stderr := f.text }

end AnnotatedEnv
