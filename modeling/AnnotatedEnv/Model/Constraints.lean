/-
Module: AnnotatedEnv.Model.Constraints
Purpose: The value constraints of a document.
Main exports: Constraints, Constraints.ofGroups, Constraints.noticesOfGroups, Constraints.isConstant
A value group gives the same constraint to all its keys, and a later group replaces what an
earlier one said about a key.
-/
import AnnotatedEnv.Assignment
import AnnotatedEnv.Constraint
import AnnotatedEnv.Section

namespace AnnotatedEnv

open Text

/-- Constraints by key, in the order in which the keys are first named. -/
abbrev Constraints := OrderedMap String Constraint

namespace Constraints

/-- The values that a text lists: what stands between its commas, without the blanks around it. -/
def valuesIn (text : List Char) : List String :=
  (((pieces (· = ',') text).map trim).filter (!·.isEmpty)).map String.ofList

/-- The allowed values of a group in order, repeats kept. The lines of its body are joined with
commas before the values are taken. -/
def valuesOf (group : TagGroup) : List String :=
  valuesIn (",".intercalate (group.bodyTexts.map uncomment)).toList

/-- The constraint that a group gives to its keys. Without a kind of its own a group that lists
values is a selection. -/
def constraintOf (group : TagGroup) (options : ValueOptions) : Constraint :=
  let values := valuesOf group
  { kind := options.kind.getD (if values.isEmpty then .text else .select)
    values
    flags := options.flags }

/-- Take in one value group. -/
def addGroup (constraints : Constraints) (group : TagGroup) : Constraints :=
  match ValueSpec.ofPayload group.tag.payload with
  | .error _ => constraints
  | .ok spec =>
    constraints.insertAll (spec.keys.map (·, constraintOf group spec.options))

/-- The constraints of all value groups. -/
def ofGroups (groups : List TagGroup) : Constraints :=
  groups.foldl addGroup .empty

/-- What one group gives notice of, the groups before it taken in. The keys of one group differ,
so none of them replaces another. -/
def groupNotices (constraints : Constraints) (group : TagGroup) : List Notice :=
  match ValueSpec.ofPayload group.tag.payload with
  | .error e => [.rejectedValue group.tagLine e]
  | .ok spec => (spec.keys.filter constraints.contains).map (.replacedConstraint group.tagLine)

/-- The notices of groups that are taken in after `constraints`. -/
def noticesFrom : (constraints : Constraints) → List TagGroup → List Notice
  | _, [] => []
  | constraints, group :: groups =>
    groupNotices constraints group ++ noticesFrom (addGroup constraints group) groups

/-- What reading the value groups noticed. -/
def noticesOfGroups (groups : List TagGroup) : List Notice :=
  noticesFrom .empty groups

/-- Whether a key must keep the value that was read first. -/
def isConstant (constraints : Constraints) (key : String) : Bool :=
  match constraints.get? key with
  | some c => c.flags.constant
  | none => false

end Constraints

end AnnotatedEnv
