/-
Module: AnnotatedEnv.Host.File
Purpose: A host for one file on disk.
Main exports: FileHost, FileHost.openFile
The file is read into a buffer once. Patches land in the buffer, and a save writes the buffer with
the line ends the file was read with, if a patch landed since the last save.
-/
import AnnotatedEnv.Host.Disk

namespace AnnotatedEnv

/-- The buffer of a file, on the disk that holds the file. -/
structure FileHost where
  disk : Disk
  path : String
  document : Document
  /-- Whether a patch landed that is not saved. -/
  dirty : Bool := false
  deriving DecidableEq, Repr

namespace FileHost

def openFile (disk : Disk) (path : String) : Except IoError FileHost :=
  match disk.readText path with
  | .error e => .error e
  | .ok text => .ok { disk, path, document := .ofText text }

def openEvent (host : FileHost) : Event :=
  { level := .debug, source := .file, message := "opened file"
    fields := [("path", .text host.path), ("lines", .number host.document.size)] }

def saveEvent (host : FileHost) : Event :=
  { level := .debug, source := .file, message := "saved file"
    fields := [("path", .text host.path)] }

def read (host : FileHost) : Reply FileHost (List String) :=
  { result := .ok host.document.lines, host }

def apply (patch : Patch) (host : FileHost) : Reply FileHost Unit :=
  match patch.applyTo host.document with
  | .error e => { result := .error (.patch e), host }
  | .ok document => { result := .ok (), host := { host with document, dirty := true } }

def save (host : FileHost) : Reply FileHost Unit :=
  if host.dirty then
    match host.disk.write host.path (Text.utf8 host.document.toText) with
    | .error e => { result := .error (.io e), host }
    | .ok disk =>
      { result := .ok (), host := { host with disk, dirty := false }, events := [host.saveEvent] }
  else { result := .ok (), host }

instance : Host FileHost where
  read := read
  apply := apply
  save := save

end FileHost

end AnnotatedEnv
