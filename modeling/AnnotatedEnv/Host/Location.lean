/-
Module: AnnotatedEnv.Host.Location
Purpose: Paths, and the places that they lead to.
Main exports: Path.parts, Path.stages, Location, Location.step, Location.ways
A place is told by the names that lead down to it from the root, so that two spellings of a path
have one place. Only what a path says counts here, not what exists.
-/
import AnnotatedEnv.Text.Blank

namespace AnnotatedEnv

/-! ### Paths -/

namespace Path

def parts (path : String) : List String :=
  (Text.pieces (· = '/') path.toList).map String.ofList

/-- Whether a part stays in the directory where it is followed. -/
def isStay (part : String) : Bool := part = "" || part = "."

def isAbsolute (path : String) : Bool := path.toList.head? = some '/'

/-- Parts joined by slashes, the shortest beginning first. -/
def joins (before : String) : List String → List String
  | [] => []
  | part :: rest => (before ++ part) :: joins (before ++ part ++ "/") rest

/-- The paths to everything on the way of a path, with the path itself as the last one. -/
def stages (path : String) : List String := joins "" (parts path)

end Path

/-! ### Places -/

/-- A place: the names that lead down to it from the root, which itself has none. -/
abbrev Location := List String

namespace Location

/-- The directory around a place. Nothing is around the root but itself. -/
def parent (l : Location) : Location := l.dropLast

def child (l : Location) (name : String) : Location := l ++ [name]

/-- The place that one part of a path leads to. -/
def step (l : Location) (part : String) : Location :=
  if Path.isStay part then l else if part = ".." then l.parent else l.child part

/-- The places that parts of a path lead to, the nearest first. -/
def ways (l : Location) : List String → List Location
  | [] => []
  | part :: rest => step l part :: ways (step l part) rest

end Location

end AnnotatedEnv
