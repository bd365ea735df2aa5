/-
Module: AnnotatedEnv.Host.Disk
Purpose: The files and directories around a working directory.
Main exports: Disk, DiskEntry, Disk.locate, Disk.read, Disk.readText, Disk.write, Disk.put
An entry is kept under its place, whatever path named it. A path is followed part by part, and the
first part that cannot be followed tells what is wrong with it.
-/
import AnnotatedEnv.Host.Basic
import AnnotatedEnv.Host.Location
import AnnotatedEnv.OrderedMap
import AnnotatedEnv.Text.Utf8

namespace AnnotatedEnv

/-- What stands at a place. -/
inductive DiskEntry where
  | file (content : List UInt8)
  | directory
  deriving DecidableEq, Repr

/-- The listed places, and the place of the working directory. -/
structure Disk where
  home : Location
  entries : List (Location × DiskEntry) := []
  /-- The places that cannot be written, each with the reason. -/
  refusals : List (Location × IoError) := []
  deriving DecidableEq, Repr

namespace Disk

/-! ### Places -/

/-- Directories that every system has. -/
def standardDirectories : List Location :=
  [[], ["bin"], ["boot"], ["dev"], ["etc"], ["home"], ["lib"], ["media"], ["mnt"], ["opt"],
    ["proc"], ["root"], ["run"], ["sbin"], ["srv"], ["sys"], ["tmp"], ["usr"], ["usr", "bin"],
    ["usr", "lib"], ["usr", "local"], ["usr", "sbin"], ["usr", "share"], ["var"], ["var", "lib"],
    ["var", "log"], ["var", "tmp"]]

/-- What stands at a place that is not listed: the directories that every system has, the device
that is always empty, and the working directory with those around it. -/
def standing? (disk : Disk) (l : Location) : Option DiskEntry :=
  if l ∈ standardDirectories || l.isPrefixOf disk.home then some .directory
  else if l = ["dev", "null"] then some (.file [])
  else none

/-- What stands at a place. -/
def find? (disk : Disk) (l : Location) : Option DiskEntry :=
  (Pairs.find? l disk.entries).or (disk.standing? l)

/-- List an entry under its place. The working directory and those around it stay what they are. -/
def set (disk : Disk) (l : Location) (entry : DiskEntry) : Disk :=
  if l.isPrefixOf disk.home then disk
  else { disk with entries := Pairs.insert l entry disk.entries }

/-- The place where a path starts: the root or the working directory. -/
def start (disk : Disk) (path : String) : Location := if Path.isAbsolute path then [] else disk.home

/-- List a directory where nothing stands. -/
def addDirectory (disk : Disk) (l : Location) : Disk :=
  match disk.find? l with
  | none => disk.set l .directory
  | some _ => disk

/-- Put an entry under a path; directories that are missing on the way are made. -/
def put (disk : Disk) (path : String) (entry : DiskEntry) : Disk :=
  let ways := Location.ways (disk.start path) (Path.parts path)
  (ways.dropLast.foldl addDirectory disk).set (ways.getLastD disk.home) entry

/-! ### Following paths -/

/-- Follow the parts of a path from a directory. Nothing has to stand where the last part leads. -/
def follow (disk : Disk) : Location → List String → Except IoError Location
  | l, [] => .ok l
  | l, part :: rest =>
    if Path.isStay part || part = ".." then disk.follow (Location.step l part) rest
    else if 255 < part.utf8ByteSize then .error .nameTooLong
    else if rest.isEmpty then .ok (Location.child l part)
    else
      match disk.find? (Location.child l part) with
      | some .directory => disk.follow (Location.child l part) rest
      | some (.file _) => .error .notDirectory
      | none => .error .notFound

/-- What is wrong with a path before anything is looked up. -/
def pathFault? (path : String) : Option IoError :=
  if '\x00' ∈ path.toList then some .nulInName
  else if path = "" then some .notFound
  else if 4096 ≤ path.utf8ByteSize then some .nameTooLong
  else none

/-- The place that a path leads to. Only the last part may be missing. -/
def locate (disk : Disk) (path : String) : Except IoError Location :=
  match pathFault? path with
  | some e => .error e
  | none => disk.follow (disk.start path) (Path.parts path)

/-! ### Reading and writing -/

def read (disk : Disk) (path : String) : Except IoError (List UInt8) :=
  match disk.locate path with
  | .error e => .error e
  | .ok l =>
    match disk.find? l with
    | none => .error .notFound
    | some .directory => .error .isDirectory
    | some (.file content) => .ok content

def readText (disk : Disk) (path : String) : Except IoError String :=
  match disk.read path with
  | .error e => .error e
  | .ok content =>
    match Text.ofUtf8? content with
    | some text => .ok text
    | none => .error .notText

/-- Replace the content of a file as a whole, or not at all. A file that is missing is made. -/
def write (disk : Disk) (path : String) (content : List UInt8) : Except IoError Disk :=
  match disk.locate path with
  | .error e => .error e
  | .ok l =>
    match disk.find? l, Pairs.find? l disk.refusals with
    | some .directory, _ => .error .isDirectory
    | _, some e => .error e
    | _, none => .ok (disk.set l (.file content))

/-- Put a directory in the place of a file, or where nothing stands. -/
def makeDirectory (disk : Disk) (path : String) : Except IoError Disk :=
  match disk.locate path with
  | .error e => .error e
  | .ok l => .ok (disk.set l .directory)

end Disk

end AnnotatedEnv
