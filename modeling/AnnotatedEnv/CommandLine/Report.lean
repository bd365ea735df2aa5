/-
Module: AnnotatedEnv.CommandLine.Report
Purpose: What the commands print.
Main exports: Report, Report.text, Report.json, Applied.summary
-/
import AnnotatedEnv.Json.Forms
import AnnotatedEnv.Session

namespace AnnotatedEnv

/-! ### The report of a document -/

/-- Everything that `show` prints. -/
structure Report where
  model : Model
  effective : Settings
  diagnostics : List Diagnostic

namespace Report

/-- Texts with a separator between neighbours. -/
def separated (separator : String) (texts : List String) : String := separator.intercalate texts

/-- A constraint in words. -/
def describe (c : Constraint) : String :=
  let kind :=
    if c.kind = .select ∧ c.values ≠ [] then "select: " ++ separated " | " c.values
    else c.kind.word
  separated ", "
    ([kind] ++ (if c.flags.constant then ["constant"] else [])
      ++ if c.flags.disabled then ["disabled"] else [])

/-- The lines of the text report. -/
def lines (r : Report) : List String :=
  let heading :=
    match r.model.target with
    | some target => "template (line " ++ toString (target.tagLine + 1) ++ "):"
    | none => "template: none"
  let entries :=
    r.effective.entries.map fun (key, value) =>
      "  " ++ key ++ " = " ++ value
        ++ match r.model.constraints.get? key with
          | some c => "  [" ++ describe c ++ "]"
          | none => ""
  let scopes := Modes.scopes r.model.modes
  let modes :=
    if scopes.isEmpty then []
    else
      "modes:" :: scopes.map fun scope =>
        "  " ++ scope ++ ": "
          ++ separated ", " ((Modes.inScope r.model.modes scope).map (·.id.mode))
  let diagnostics :=
    if r.diagnostics.isEmpty then []
    else "diagnostics:" :: r.diagnostics.map fun d => "  " ++ d.render
  heading :: entries ++ modes ++ diagnostics

/-- The text report: every line is ended. -/
def text (r : Report) : String :=
  String.join (r.lines.map (· ++ "\n"))

/-! ### The JSON report -/

def settingsJson (s : Settings) : Json :=
  .object (s.entries.map fun (key, value) => (key, .string value))

def modeJson (g : ModeGroup) : Json :=
  .object [("id", g.id.toJson), ("tag_line", .nat g.tagLine),
    ("overrides", settingsJson g.overrides)]

def constraintJson (c : Constraint) : Json :=
  .object [("kind", c.kind.toJson), ("values", .array (c.values.map .string)),
    ("flags", c.flags.toJson)]

def targetJson : Option PatchTarget → Json
  | none => .null
  | some t =>
    .object [("section", .string t.kind.label), ("tag_line", .nat t.tagLine),
      ("assignment_lines", .nat t.assignmentLines)]

/-- A model as an object; the document itself is left out. -/
def modelJson (m : Model) : Json :=
  .object
    [("template", settingsJson m.template),
     ("modes", .object (m.modes.entries.map fun (id, g) => (id.render, modeJson g))),
     ("constraints", .object (m.constraints.entries.map fun (key, c) => (key, constraintJson c))),
     ("baseline", settingsJson m.baseline),
     ("patch_target", targetJson m.target)]

def diagnosticJson (d : Diagnostic) : Json :=
  .object [("line", .nat d.line), ("kind", .string d.kind.label), ("message", .string d.message)]

def json (r : Report) : String :=
  (Json.object
    [("model", modelJson r.model), ("effective", settingsJson r.effective),
     ("diagnostics", .array (r.diagnostics.map diagnosticJson))]).pretty ++ "\n"

end Report

/-! ### The summary of an override -/

/-- What `set` and `mode` print. -/
def Applied.summary (a : Applied) : String :=
  if a.changes.isEmpty then "no changes\n"
  else
    String.join (a.changes.entries.map fun (key, value) => key ++ "=" ++ value ++ "\n")
      ++ "updated " ++ toString a.changes.size ++ " key(s), " ++ toString a.patch.size
      ++ " line(s) rewritten\n"

end AnnotatedEnv
