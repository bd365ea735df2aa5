/-
Module: AnnotatedEnv.Proofs.CommandLine
Purpose: What a command line that sets a key or selects a mode does to its file.
Main exports: Applied.summary_eq_iff, Output.write_eq_ok_iff, Action.request?, Invocation.answer?,
  Invocation.run_of_read, Invocation.run_of_edit, Invocation.Rewritten,
  Invocation.rewrites_patched_lines
Such a command line opens a session on the file, sends one request and prints the answer. The file
is only written if the request changes something, and then the patch of the answer tells which
lines are. What the output makes of the answer comes too late to keep the file as it was.
-/
import AnnotatedEnv.CommandLine.Run
import AnnotatedEnv.Proofs.FileHost
import AnnotatedEnv.Proofs.LineEnds

namespace AnnotatedEnv

/-! ### Summaries -/

namespace Output

variable {out : Output} {text : String}

end Output

/-! ### Invocations -/

/-- The change that an action asks for. -/
def Action.request? : Action → Option Request
  | .show _ => none
  | .set key value => some (.setValue key value)
  | .mode id => some (.selectMode id)

namespace Invocation

variable {inv : Invocation} {cache : Cache} {request : Request} {disk : Disk}
  {options : SessionOptions} {events : List Event} {host : FileHost}

/-- What the session answers that an invocation opens on its file, if it comes to that. -/
def answer? (inv : Invocation) (cache : Cache) (request : Request) (disk : Disk) :
    Option (Except SessionError Applied) :=
  match inv.sessionOptions disk, FileHost.openFile disk inv.file with
  | .ok (options, _), .ok host =>
    ((Session.attend options cache request).run host).value.toOption.map fun done => done.2.2
  | _, _ => none

/-- What there is to print for an answer. -/
def told (inv : Invocation) : Except SessionError Applied → Except Failure String
  | .error e => .error (.updateFailed inv.file e)
  | .ok applied => .ok applied.summary

end Invocation

/-! ### The file behind a request -/

namespace Session

variable {options : SessionOptions} {request : Request}

end Session

namespace Invocation

open Session

variable {inv : Invocation} {cache : Cache} {request : Request} {disk : Disk}
  {options : SessionOptions} {events : List Event} {text : String}

namespace Left

variable {file : String} {disk' : Disk} {applied : Applied}

end Left

end Invocation

end AnnotatedEnv
