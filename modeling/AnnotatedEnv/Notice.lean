/-
Module: AnnotatedEnv.Notice
Purpose: What reading a document noticed, as diagnostics for the user and as log events.
Main exports: Diagnostic, DiagnosticKind, Notice, Notice.diagnostic?, Notice.event
Reading never fails. A line or a group that cannot be used is dropped with a notice; the two
views of a notice keep diagnostics and log in step.
-/
import AnnotatedEnv.Event
import AnnotatedEnv.Mode

namespace AnnotatedEnv

/-! ### Diagnostics -/

inductive DiagnosticKind where
  /-- An unknown tag name or an unusable payload. -/
  | malformedTag
  /-- A second group of a kind of which only the first one counts. -/
  | duplicateTemplate
  /-- An overwriting block that is not asked for. -/
  | legacySectionIgnored
  /-- A key that a body assigns twice, so that the section cannot be written back. -/
  | duplicateKey
  deriving DecidableEq, Repr

namespace DiagnosticKind

def title : DiagnosticKind → String
  | malformedTag => "malformed tag"
  | duplicateTemplate => "duplicate template"
  | legacySectionIgnored => "legacy section ignored"
  | duplicateKey => "duplicate key"

/-- The spelling in JSON reports. -/
def label : DiagnosticKind → String
  | malformedTag => "malformed-tag"
  | duplicateTemplate => "duplicate-template"
  | legacySectionIgnored => "legacy-section-ignored"
  | duplicateKey => "duplicate-key"

end DiagnosticKind

/-- A remark on one line, counted from zero. -/
structure Diagnostic where
  line : Nat
  kind : DiagnosticKind
  message : String
  deriving DecidableEq, Repr

/-- The remark as a text that counts lines from one. -/
def Diagnostic.render (d : Diagnostic) : String :=
  "line " ++ toString (d.line + 1) ++ ": " ++ d.kind.title ++ ": " ++ d.message

/-! ### Notices -/

/-- One thing that reading a document noticed. -/
inductive Notice where
  /-- A marker with an unknown name; the line is skipped. -/
  | unknownTag (line : Nat) (name : String)
  /-- A later group of a kind of which the first one, tagged on line `first`, counts. -/
  | repeatedSection (line : Nat) (kind : TagKind) (first : Nat)
  /-- A key that an earlier line of the same body assigned. -/
  | repeatedKey (line : Nat) (key : String) (earlier : Nat)
  /-- A mode group with an unusable payload; the group is dropped. -/
  | rejectedMode (line : Nat) (error : TagError)
  /-- A mode group that adds to an earlier one with the same id. -/
  | extendedMode (line : Nat) (id : ModeId)
  /-- A value group with an unusable payload; the group is dropped. -/
  | rejectedValue (line : Nat) (error : TagError)
  /-- A value group that replaces the constraint of a key. -/
  | replacedConstraint (line : Nat) (key : String)
  /-- The overwriting block names a constant key. -/
  | keptConstant (key : String)
  /-- The overwriting block names a key that the template lacks. -/
  | strayKey (key : String)
  /-- An overwriting block that is not asked for. -/
  | ignoredLegacy (line : Nat)
  deriving DecidableEq, Repr

namespace Notice

/-- The diagnostic that a notice gives, if it concerns the user. -/
def diagnostic? : Notice → Option Diagnostic
  | unknownTag line name =>
    some ⟨line, .malformedTag, (TagError.unknownName name).message⟩
  | repeatedSection line kind first =>
    some ⟨line, .duplicateTemplate,
      "'@" ++ kind.name ++ "' already declared on line " ++ toString (first + 1)
        ++ "; section ignored"⟩
  | repeatedKey line key earlier =>
    some ⟨line, .duplicateKey,
      "'" ++ key ++ "' already assigned on line " ++ toString (earlier + 1)⟩
  | rejectedMode line error => some ⟨line, .malformedTag, error.message⟩
  | rejectedValue line error => some ⟨line, .malformedTag, error.message⟩
  | ignoredLegacy line =>
    some ⟨line, .legacySectionIgnored,
      "'@" ++ TagKind.overwritten.name ++ "' is ignored unless legacy mode is enabled"⟩
  | extendedMode _ _ => none
  | replacedConstraint _ _ => none
  | keptConstant _ => none
  | strayKey _ => none

/-- The log event of a notice. -/
def event : Notice → Event
  | unknownTag line name =>
    { level := .warn, source := .sections
      message := "skipping malformed tag"
      fields := [("line", .number line), ("error", .text (TagError.unknownName name).message)] }
  | repeatedSection line kind _ =>
    { level := .warn, source := .templates
      message := "ignoring duplicate section"
      fields := [("line", .number line), ("kind", .text kind.name)] }
  | repeatedKey line key _ =>
    { level := .warn, source := .templates
      message := "repeated key in section body"
      fields := [("line", .number line), ("key", .text key)] }
  | rejectedMode line error =>
    { level := .warn, source := .modes
      message := "dropping mode group"
      fields := [("line", .number line), ("error", .text error.message)] }
  | extendedMode line id =>
    { level := .debug, source := .modes
      message := "extending repeated mode group"
      fields := [("mode", .text id.render), ("line", .number line)] }
  | rejectedValue line error =>
    { level := .warn, source := .constraints
      message := "dropping value group"
      fields := [("line", .number line), ("error", .text error.message)] }
  | replacedConstraint line key =>
    { level := .debug, source := .constraints
      message := "later value group replaces constraint"
      fields := [("key", .text key), ("line", .number line)] }
  | keptConstant key =>
    { level := .debug, source := .loading
      message := "overwritten block skips constant key", fields := [("key", .text key)] }
  | strayKey key =>
    { level := .debug, source := .loading
      message := "overwritten block names key outside template", fields := [("key", .text key)] }
  | ignoredLegacy line =>
    { level := .warn, source := .loading
      message := "legacy overwritten section ignored", fields := [("line", .number line)] }

/-- The diagnostics among notices, in the order in which they were noticed. -/
def diagnostics (notices : List Notice) : List Diagnostic :=
  notices.filterMap diagnostic?

end Notice

end AnnotatedEnv
