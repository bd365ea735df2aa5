/-
Module: AnnotatedEnv.Model.Template
Purpose: The assignments of a template-like section.
Main exports: TemplateBlock, TemplateBlock.ofGroups, TemplateBlock.noticesOfGroups
Only the first group of the kind counts. A key that its body assigns twice takes the last value,
but such a body cannot be written back, which the number of assignment lines gives away.
-/
import AnnotatedEnv.Assignment
import AnnotatedEnv.Section

namespace AnnotatedEnv

/-- The first group of a kind, read as assignments. -/
structure TemplateBlock where
  tagLine : Nat
  settings : Settings
  /-- The body lines that are assignments, repeats included. -/
  assignmentLines : Nat
  deriving DecidableEq, Repr

namespace TemplateBlock

/-- The keys that body lines assign, with the line. -/
def assignedKeys (body : List NumberedLine) : List (Nat × String) :=
  body.filterMap fun line => (Assignment.parse? line.text).map fun a => (line.index, a.key)

/-- Notices of keys that were assigned before; `seen` holds the first line of every key. -/
def repeats : (seen : List (String × Nat)) → List (Nat × String) → List Notice
  | _, [] => []
  | seen, (line, key) :: rest =>
    match Pairs.find? key seen with
    | some earlier => .repeatedKey line key earlier :: repeats seen rest
    | none => repeats ((key, line) :: seen) rest

/-- Read the groups of a template-like section. -/
def ofGroups : List TagGroup → Option TemplateBlock
  | [] => none
  | first :: _ =>
    some
      { tagLine := first.tagLine
        settings := Assignment.parseAll first.bodyTexts
        assignmentLines := (assignedKeys first.body).length }

/-- What reading the groups noticed: first the later groups, then the repeated keys. -/
def noticesOfGroups (kind : TagKind) : List TagGroup → List Notice
  | [] => []
  | first :: later =>
    later.map (fun group => .repeatedSection group.tagLine kind first.tagLine)
      ++ repeats [] (assignedKeys first.body)

end TemplateBlock

end AnnotatedEnv
