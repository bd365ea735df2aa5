/-
Module: AnnotatedEnv.Host.Memory
Purpose: A host that keeps its lines in memory, with a switch for everything that may go wrong.
Main exports: MemoryHost, MemoryHost.ofLines, MemoryHost.ofText, MemoryHost.edit
Others may edit the buffer between calls or right before a save, calls may fail or take time, and
a patch may be lost without a word.
-/
import AnnotatedEnv.Host.Basic

namespace AnnotatedEnv

/-- A buffer with its saved copy. -/
structure MemoryHost where
  buffer : List String
  saved : List String
  /-- How many patches landed. -/
  patches : Nat := 0
  /-- How many saves took place. -/
  saves : Nat := 0
  /-- The call that fails. -/
  failing : Option HostCall := none
  /-- Every save fails for want of room. -/
  full : Bool := false
  /-- Line and text that somebody puts into the buffer right before each save. -/
  onSave : Option (Nat × String) := none
  /-- Patches are accepted and dropped. -/
  dropsPatches : Bool := false
  /-- Reading takes time. -/
  slowRead : Bool := false
  /-- Applying a patch takes time. -/
  slowApply : Bool := false
  /-- The first call of this kind waits until its caller comes back. -/
  pause : Option HostCall := none
  deriving DecidableEq, Repr

namespace MemoryHost

/-- A host that holds some lines, saved already. -/
def ofLines (lines : List String) : MemoryHost := { buffer := lines, saved := lines }

/-- A host that holds the lines of a text. -/
def ofText (text : String) : MemoryHost :=
  ofLines ((Text.splitEndedLines text.toList).map String.ofList)

/-- Somebody else replaces a line. -/
def edit (host : MemoryHost) (i : Nat) (text : String) : MemoryHost :=
  { host with buffer := host.buffer.set i text }

def callName : HostCall → String
  | .read => "read"
  | .apply => "apply"
  | .save => "save"

/-- The failure of a call that is made to fail. -/
def failure (call : HostCall) : HostError := .other (callName call ++ " failed")

/-- The buffer as a save finds it. -/
def beforeSave (host : MemoryHost) : MemoryHost :=
  match host.onSave with
  | some (i, text) => host.edit i text
  | none => host

def read (host : MemoryHost) : Reply MemoryHost (List String) :=
  if host.failing = some .read then { result := .error (failure .read), host }
  else { result := .ok host.buffer, host }

def apply (patch : Patch) (host : MemoryHost) : Reply MemoryHost Unit :=
  if host.failing = some .apply then { result := .error (failure .apply), host }
  else if host.dropsPatches then { result := .ok (), host }
  else
    match patch.applyTo (.ofLines host.buffer) with
    | .error e => { result := .error (.patch e), host }
    | .ok d =>
      { result := .ok (), host := { host with buffer := d.lines, patches := host.patches + 1 } }

/-- Copy the buffer to where it lasts. -/
def save (host : MemoryHost) : Reply MemoryHost Unit :=
  if host.failing = some .save then { result := .error (failure .save), host }
  else
    let host := host.beforeSave
    if host.full then { result := .error (.other "disk full"), host }
    else { result := .ok (), host := { host with saved := host.buffer, saves := host.saves + 1 } }

/-- Whether a call takes time. A call that fails or is dropped does not. -/
def isSlow (call : HostCall) (host : MemoryHost) : Bool :=
  host.failing ≠ some call &&
    match call with
    | .read => host.slowRead
    | .apply => host.slowApply && !host.dropsPatches
    | .save => false

/-- Begin a call: a pause holds it once, and a slow call once more. -/
def enter (call : HostCall) (host : MemoryHost) : Nat × MemoryHost :=
  let slow := if host.isSlow call then 1 else 0
  if host.pause = some call then (1 + slow, { host with pause := none }) else (slow, host)

instance : WaitingHost MemoryHost where
  read := read
  apply := apply
  save := save
  enter := enter

end MemoryHost

end AnnotatedEnv
