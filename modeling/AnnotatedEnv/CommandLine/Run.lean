/-
Module: AnnotatedEnv.CommandLine.Run
Purpose: Carrying out an invocation on the files of a working directory.
Main exports: Failure, Failure.chain, Output, Output.write, RunResult, Invocation.run
What an invocation has to say is printed when all else is done, so an output that does not take it
makes the invocation fail behind its work.
-/
import AnnotatedEnv.CommandLine.Arguments
import AnnotatedEnv.CommandLine.Report
import AnnotatedEnv.Host.File
import AnnotatedEnv.Session.OptionsFile

namespace AnnotatedEnv

/-! ### Failures -/

inductive Failure where
  /-- The file with session options cannot be read. -/
  | configUnreadable (path : String) (error : IoError)
  /-- The file with session options holds something else. -/
  | configInvalid (path : String)
  | openFailed (file : String) (error : IoError)
  /-- The session cannot read its host. -/
  | startFailed (error : HostError)
  | updateFailed (file : String) (error : SessionError)
  /-- The output does not take the text. -/
  | outputRefused (error : IoError)
  deriving DecidableEq, Repr

/-- The wording of a failure and of what lies behind it, from near to far. -/
def Failure.chain : Failure → List String
  | configUnreadable path e => ["failed to read config " ++ path ++ ": " ++ e.message, e.message]
  | configInvalid path => ["invalid config: " ++ path]
  | openFailed file e =>
    ["failed to open " ++ file, (HostError.io e).message] ++ (HostError.io e).causes
  | startFailed e => [(SessionError.host e).message] ++ (SessionError.host e).causes
  | updateFailed file e => ["failed to update " ++ file, e.message] ++ e.causes
  | outputRefused e => [e.message]

def Failure.message (f : Failure) : String := ": ".intercalate f.chain

/-! ### Outputs -/

/-- Where an invocation prints to, told by its reasons not to take a text as a whole. -/
structure Output where
  refusal? : (text : String) → Option IoError

namespace Output

def accepting : Output := ⟨fun _ => none⟩

def refusing (e : IoError) : Output := ⟨fun _ => some e⟩

def write (out : Output) (text : String) : Except Failure String :=
  match out.refusal? text with
  | none => .ok text
  | some e => .error (.outputRefused e)

end Output

/-! ### Running -/

/-- What an invocation leaves behind. -/
structure RunResult where
  /-- The printed text. -/
  result : Except Failure String
  disk : Disk
  events : List Event

namespace Invocation

def configEvent (path : String) : Event :=
  { level := .debug, source := .options, message := "loaded session config"
    fields := [("path", .text path)] }

/-- The session options of an invocation, with the log events of reading them. -/
def sessionOptions (inv : Invocation) (disk : Disk) :
    Except Failure (SessionOptions × List Event) :=
  let given : Except Failure (SessionOptions × List Event) :=
    match inv.config with
    | none => .ok ({}, [])
    | some path =>
      match disk.readText path with
      | .error e => .error (.configUnreadable path e)
      | .ok text =>
        match SessionOptions.ofTomlText? text with
        | none => .error (.configInvalid path)
        | some options => .ok (options, [configEvent path])
  given.map fun (options, events) =>
    if inv.legacyOverwritten then
      ({ options with load := { options.load with legacyOverwritten := true } }, events)
    else (options, events)

/-- The report on an opened document. -/
def report (s : SessionState) (json : Bool) : String :=
  let r : Report := ⟨s.model, s.effective, s.held.diagnostics⟩
  if json then r.json else r.text

/-- Carry out a request on an opened document. The value tells what it changed. -/
def update (inv : Invocation) (options : SessionOptions) (s : SessionState) (host : FileHost)
    (request : Request) : Dialogue.Outcome FileHost (Except Failure String) :=
  let done := (Session.override options request s).run host
  let result : Except Failure String :=
    match done.value.2 with
    | .error e => .error (.updateFailed inv.file e)
    | .ok applied => .ok applied.summary
  ⟨result, done.host, done.events⟩

/-- Open a session on a file and carry out the action. The value is what there is to print. -/
def runOn (inv : Invocation) (options : SessionOptions) (cache : Cache) (host : FileHost) :
    Dialogue.Outcome FileHost (Except Failure String) :=
  let opened := (Session.start options cache).run host
  match opened.value with
  | .error e => ⟨.error (.startFailed e), opened.host, opened.events⟩
  | .ok s =>
    match inv.action with
    | .show json => ⟨.ok (report s json), opened.host, opened.events⟩
    | .set key value =>
      (inv.update options s opened.host (.setValue key value)).after opened.events
    | .mode id => (inv.update options s opened.host (.selectMode id)).after opened.events

/-- Carry out an invocation. What there is to print is printed last, when a changed file is already
saved. -/
def run (inv : Invocation) (disk : Disk) (out : Output := .accepting)
    (cache : Cache := .limited) : RunResult :=
  match inv.sessionOptions disk with
  | .error e => ⟨.error e, disk, []⟩
  | .ok (options, events) =>
    match FileHost.openFile disk inv.file with
    | .error e => ⟨.error (.openFailed inv.file e), disk, events⟩
    | .ok host =>
      let done := inv.runOn options cache host
      ⟨done.value.bind out.write, done.host.disk, events ++ [host.openEvent] ++ done.events⟩

end Invocation

end AnnotatedEnv
