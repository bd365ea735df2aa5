/-
Module: AnnotatedEnv.Host.Basic
Purpose: The owner of the text that a session edits, and what a session may ask of it.
Main exports: IoError, HostError, HostCall, Reply, Host, WaitingHost
-/
import AnnotatedEnv.Event
import AnnotatedEnv.Patch

namespace AnnotatedEnv

/-! ### Errors -/

inductive IoError where
  | notFound
  | notDirectory
  | isDirectory
  | nameTooLong
  /-- The name holds a NUL character. -/
  | nulInName
  /-- The content is no UTF-8 text. -/
  | notText
  | accessDenied
  | noSpace
  /-- Anything else, as the system words it. -/
  | other (message : String)
  deriving DecidableEq, Repr

def IoError.message : IoError → String
  | notFound => "No such file or directory (os error 2)"
  | notDirectory => "Not a directory (os error 20)"
  | isDirectory => "Is a directory (os error 21)"
  | nameTooLong => "File name too long (os error 36)"
  | nulInName => "file name contained an unexpected NUL byte"
  | notText => "stream did not contain valid UTF-8"
  | accessDenied => "Permission denied (os error 13)"
  | noSpace => "No space left on device (os error 28)"
  | other message => message

inductive HostError where
  | patch (error : PatchError)
  | io (error : IoError)
  | other (message : String)
  deriving DecidableEq, Repr

namespace HostError

def message : HostError → String
  | patch error => "patch rejected: " ++ error.message
  | io error => "i/o error: " ++ error.message
  | other message => message

/-- The wording of what lies behind the error. -/
def causes : HostError → List String
  | patch error => [error.message]
  | io error => [error.message]
  | other _ => []

end HostError

/-! ### Hosts -/

/-- The things a session asks of its host. -/
inductive HostCall where
  | read
  | apply
  | save
  deriving DecidableEq, Repr

/-- What a host call gives back: the answer and the host after it. -/
structure Reply (σ α : Type) where
  result : Except HostError α
  host : σ
  events : List Event := []

/-- An owner of lines in the state `σ`. It hands out its lines, replaces whole lines if the patch
was made for them, and makes them last. -/
class Host (σ : Type) where
  read : σ → Reply σ (List String)
  apply : Patch → σ → Reply σ Unit
  save : σ → Reply σ Unit

/-- A host whose calls may take time. -/
class WaitingHost (σ : Type) extends Host σ where
  /-- Begin a call: how often its caller has to come back before it takes place. -/
  enter : HostCall → σ → Nat × σ

end AnnotatedEnv
