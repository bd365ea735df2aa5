/-
Module: AnnotatedEnv.Model.Modes
Purpose: The presets of a document.
Main exports: Modes, Modes.ofGroups, Modes.noticesOfGroups
A preset whose id occurs again is extended: it keeps the tag line of its first group, and its
later assignments win.
-/
import AnnotatedEnv.Assignment
import AnnotatedEnv.Section

namespace AnnotatedEnv

/-- Presets by id, in the order in which the ids first appear. -/
abbrev Modes := OrderedMap ModeId ModeGroup

namespace Modes

/-- The overrides that a group's body holds. Body lines are usually commented out. -/
def overridesOf (group : TagGroup) : Settings :=
  Assignment.parseAll (group.bodyTexts.map uncomment)

/-- Take in one mode group. -/
def addGroup (modes : Modes) (group : TagGroup) : Modes :=
  match ModeId.ofPayload group.tag.payload with
  | .error _ => modes
  | .ok id =>
    match modes.get? id with
    | some known =>
      modes.replace id { known with overrides := known.overrides.extend (overridesOf group) }
    | none => modes.insert id ⟨id, group.tagLine, overridesOf group⟩

/-- The presets of all mode groups. -/
def ofGroups (groups : List TagGroup) : Modes :=
  groups.foldl addGroup .empty

/-- What one group gives notice of, the groups before it taken in. -/
def groupNotices (modes : Modes) (group : TagGroup) : List Notice :=
  match ModeId.ofPayload group.tag.payload with
  | .error e => [.rejectedMode group.tagLine e]
  | .ok id => if modes.contains id then [.extendedMode group.tagLine id] else []

/-- The notices of groups that are taken in after `modes`. -/
def noticesFrom : (modes : Modes) → List TagGroup → List Notice
  | _, [] => []
  | modes, group :: groups =>
    groupNotices modes group ++ noticesFrom (addGroup modes group) groups

/-- What reading the mode groups noticed. -/
def noticesOfGroups (groups : List TagGroup) : List Notice :=
  noticesFrom .empty groups

/-- The scopes in the order in which they first appear. -/
def scopes (modes : Modes) : List String :=
  (modes.keys.map (·.scope)).eraseDups

/-- The presets of one scope. -/
def inScope (modes : Modes) (scope : String) : List ModeGroup :=
  modes.values.filter (·.id.scope = scope)

end Modes

end AnnotatedEnv
