/-
Module: AnnotatedEnv.Section
Purpose: Cutting the lines of a document at its tags.
Main exports: NumberedLine, TagGroup, Sections, Sections.ofLines, Sections.groups
A recognised tag opens a group that owns the plain lines up to the next recognised tag. Plain
lines before the first tag are the preamble, and a marker with an unknown name opens nothing.
-/
import AnnotatedEnv.Notice

namespace AnnotatedEnv

/-- A line with its index in the document. -/
structure NumberedLine where
  index : Nat
  text : String
  deriving DecidableEq, Repr

/-- A tag line and the plain lines it owns. -/
structure TagGroup where
  tagLine : Nat
  tag : Tag
  body : List NumberedLine
  deriving DecidableEq, Repr

def TagGroup.bodyTexts (group : TagGroup) : List String :=
  group.body.map (·.text)

/-- The lines of a document, cut at its tags. -/
structure Sections where
  /-- Plain lines before the first recognised tag. -/
  preamble : List NumberedLine
  /-- All groups in the order of their tags. -/
  allGroups : List TagGroup
  /-- The lines with an unknown tag name, and the name. -/
  unknownTags : List (Nat × String)
  deriving DecidableEq, Repr

namespace Sections

/-- Cut the lines from index `i` on. The plain lines in front of the first tag come back as the
preamble, so a tag line takes over the preamble of what follows it. -/
def ofLinesFrom : (i : Nat) → List String → Sections
  | _, [] => ⟨[], [], []⟩
  | i, line :: lines =>
    let rest := ofLinesFrom (i + 1) lines
    match scanLine line with
    | .plain => { rest with preamble := ⟨i, line⟩ :: rest.preamble }
    | .tag tag =>
      { rest with preamble := [], allGroups := ⟨i, tag, rest.preamble⟩ :: rest.allGroups }
    | .unknown name => { rest with unknownTags := (i, name) :: rest.unknownTags }

/-- Cut the lines of a document. -/
def ofLines (lines : List String) : Sections := ofLinesFrom 0 lines

def groups (sections : Sections) (kind : TagKind) : List TagGroup :=
  sections.allGroups.filter (·.tag.kind = kind)

def notices (sections : Sections) : List Notice :=
  sections.unknownTags.map fun (line, name) => .unknownTag line name

end Sections

end AnnotatedEnv
