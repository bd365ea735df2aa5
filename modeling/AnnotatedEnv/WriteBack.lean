/-
Module: AnnotatedEnv.WriteBack
Purpose: Writing an effective configuration back as a patch of whole lines.
Main exports: WriteBackError, Model.patchFor, Edit, EditError, Model.edit
The keys are expected one a line right behind the target's tag, in order. This is checked before
anything is written, because a value on another line would not be read back.
-/
import AnnotatedEnv.Override
import AnnotatedEnv.Patch

namespace AnnotatedEnv

/-! ### The patch of a configuration -/

inductive WriteBackError where
  /-- No section holds assignments. -/
  | missingTarget
  /-- The line that should hold a key does not. -/
  | layoutMismatch (line : Nat) (expectedKey : String)
  /-- The section assigns some key more than once. -/
  | repeatedKeys (tagLine assignments keys : Nat)
  deriving DecidableEq, Repr

def WriteBackError.message : WriteBackError → String
  | missingTarget => "document has no template section to patch"
  | layoutMismatch line expectedKey =>
    "line " ++ toString line ++ " does not hold '" ++ expectedKey
      ++ "'; template lines were reordered or interleaved"
  | repeatedKeys tagLine assignments keys =>
    "section at line " ++ toString tagLine ++ " holds " ++ toString assignments
      ++ " assignments for " ++ toString keys ++ " keys; repeated keys cannot be patched"

namespace Model

/-- Whether a line of the document assigns the key. -/
def holdsKey (m : Model) (line : Nat) (key : String) : Bool :=
  match (m.document.line? line).bind Assignment.parse? with
  | some a => a.key = key
  | none => false

/-- The instructions that write the entries from a line on, one a line. -/
def instructionsFrom (m : Model) :
    (line : Nat) → List (String × String) → Except WriteBackError (List LinePatch)
  | _, [] => .ok []
  | line, (key, value) :: entries =>
    if m.holdsKey line key then
      (m.instructionsFrom (line + 1) entries).map (⟨line, Assignment.render key value⟩ :: ·)
    else .error (.layoutMismatch line key)

/-- The patch that writes a configuration into the model's document. -/
def patchFor (m : Model) (effective : Settings) : Except WriteBackError Patch :=
  if effective.isEmpty then .ok (.empty m.document.digest)
  else
    match m.target with
    | none => .error .missingTarget
    | some target =>
      match m.instructionsFrom target.firstLine effective.entries with
      | .error e => .error e
      | .ok instructions =>
        if effective.size < target.assignmentLines then
          .error (.repeatedKeys target.tagLine target.assignmentLines effective.size)
        else .ok (.ofList m.document.digest instructions)

end Model

/-! ### Edits -/

/-- An accepted request with the patch that writes it. -/
structure Edit where
  /-- The configuration once the patch has landed. -/
  effective : Settings
  changes : Settings
  patch : Patch
  deriving DecidableEq, Repr

def Edit.isNoop (edit : Edit) : Bool := edit.changes.isEmpty

inductive EditError where
  | override (error : OverrideError)
  | writeBack (error : WriteBackError)
  deriving DecidableEq, Repr

def EditError.message : EditError → String
  | override error => "override error: " ++ error.message
  | writeBack error => "patch error: " ++ error.message

/-- Apply a request and make the patch for it. A request that changes nothing needs no place to
write and never fails on the layout. -/
def Model.edit (m : Model) (effective : Settings) (request : Request) : Except EditError Edit :=
  match request.compute m effective with
  | .error e => .error (.override e)
  | .ok outcome =>
    if outcome.isNoop then
      .ok ⟨outcome.effective, outcome.changes, .empty m.document.digest⟩
    else
      match m.patchFor outcome.effective with
      | .error e => .error (.writeBack e)
      | .ok patch => .ok ⟨outcome.effective, outcome.changes, patch⟩

end AnnotatedEnv
