/-
Module: AnnotatedEnv.Main
Purpose: The program on real files.
Main exports: main
Only the paths that the command line names are looked up, with the directories on the way to them,
and only a file that changed is written.
-/
import AnnotatedEnv.CommandLine.Process

namespace AnnotatedEnv

/-- List what stands at a path now, if the way to it is listed. -/
def lookUp (disk : Disk) (path : String) : IO Disk :=
  match disk.locate path with
  | .error _ => pure disk
  | .ok location => do
    try
      let content ← IO.FS.readBinFile path
      pure (disk.set location (.file content.data.toList))
    catch
      | .noFileOrDirectory .. => pure disk
      | _ => pure (disk.set location .directory)

/-- The paths that an invocation may read. -/
def Invocation.paths (inv : Invocation) : List String :=
  inv.config.toList ++ [inv.file]

/-- The reason behind an error of the system. -/
def reasonOf : IO.Error → IoError
  | .permissionDenied .. => .accessDenied
  | .resourceExhausted .. => .noSpace
  | e => .other (toString e)

/-- Write the files whose content differs from what it was, and tell which cannot be written. -/
def writeChanges (before after : Disk) (paths : List String) : IO (List (Location × IoError)) :=
  paths.filterMapM fun path => do
    match before.locate path, after.read path with
    | .ok location, .ok content =>
      if (before.read path).toOption = some content then pure none
      else
        try
          IO.FS.writeBinFile path ⟨content.toArray⟩
          pure none
        catch e => pure (some (location, reasonOf e))
    | _, _ => pure none

/-- Print a text, and tell why it cannot be printed. -/
def printText (text : String) : IO (Option IoError) := do
  try
    IO.print text
    (← IO.getStdout).flush
    pure none
  catch e => pure (some (reasonOf e))

end AnnotatedEnv

open AnnotatedEnv in
/-- Run the program on the real files. Where a file or the output turns out to refuse what is
written, the answer is that of the program on such a disk or with such an output. -/
def main (arguments : List String) : IO UInt32 := do
  let paths :=
    match Invocation.ofArguments arguments with
    | .ok inv => inv.paths
    | .error _ => []
  let home := (Path.parts (toString (← IO.currentDir))).filter (!Path.isStay ·)
  let before ← (paths.flatMap Path.stages).foldlM lookUp { home }
  let choice ← IO.getEnv "RUST_LOG"
  let planned := runProcess before arguments choice
  let refusals ← writeChanges before planned.disk paths
  let disk := { before with refusals }
  let done := runProcess disk arguments choice
  for event in done.log do
    IO.eprintln (if done.logJson then event.json.compact else event.line)
  match done.stdout with
  | some text =>
    let done :=
      match ← printText text with
      | none => done
      | some e => runProcess disk arguments choice (.refusing e)
    IO.eprint done.stderr
    pure done.code.toUInt32
  | none =>
    match Invocation.ofArguments arguments with
    | .error e => if done.code = 0 then IO.print e.message else IO.eprint e.message
    | .ok _ => pure ()
    pure done.code.toUInt32
