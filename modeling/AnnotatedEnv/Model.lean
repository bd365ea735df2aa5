/-
Module: AnnotatedEnv.Model
Purpose: The structured view of a document.
Main exports: LoadOptions, PatchTarget, Model, Model.ofDocument, Loaded, Loaded.ofDocument
Reading a document always gives a model. What could not be used is left out of it and told by the
notices.
-/
import AnnotatedEnv.Document
import AnnotatedEnv.Model.Constraints
import AnnotatedEnv.Model.Modes
import AnnotatedEnv.Model.Template

namespace AnnotatedEnv

/-! ### Types -/

/-- Choices that are made when a document is loaded. -/
structure LoadOptions where
  /-- Honour the overwriting block, and write back into it instead of the template. -/
  legacyOverwritten : Bool := false
  /-- How many loaded documents are kept for reuse. -/
  cacheCapacity : Nat := 64
  deriving DecidableEq, Repr

/-- The section whose lines hold the effective assignments. -/
structure PatchTarget where
  kind : TagKind
  tagLine : Nat
  /-- Body lines that are assignments; more than there are keys means repeats. -/
  assignmentLines : Nat
  deriving DecidableEq, Repr

def PatchTarget.firstLine (target : PatchTarget) : Nat := target.tagLine + 1

/-- A document with what its annotations say. -/
structure Model where
  document : Document
  /-- The default assignments. -/
  template : Settings
  modes : Modes
  constraints : Constraints
  /-- The effective configuration right after loading. -/
  baseline : Settings
  target : Option PatchTarget
  deriving DecidableEq, Repr

/-- Whether a key must keep the value that was read first. -/
def Model.isConstant (m : Model) (key : String) : Bool := m.constraints.isConstant key

/-! ### The overwriting block -/

namespace Overwrite

/-- Whether the block may set a key: the configuration has it and it is not constant. -/
def admits (constraints : Constraints) (settings : Settings) (key : String) : Bool :=
  settings.contains key && !constraints.isConstant key

/-- The template with the admitted assignments of the block. -/
def apply (constraints : Constraints) (template block : Settings) : Settings :=
  template.replaceAll (block.filter fun e => admits constraints template e.1).entries

/-- The assignments of the block that are left out. -/
def notices (constraints : Constraints) (template block : Settings) : List Notice :=
  block.keys.filterMap fun key =>
    if !template.contains key then some (.strayKey key)
    else if constraints.isConstant key then some (.keptConstant key)
    else none

end Overwrite

/-! ### Loading -/

/-- The place to write that a block of a kind gives. -/
def TemplateBlock.target (kind : TagKind) (block : TemplateBlock) : PatchTarget :=
  ⟨kind, block.tagLine, block.assignmentLines⟩

/-- A model together with what reading it noticed. -/
structure Loaded where
  model : Model
  notices : List Notice
  deriving DecidableEq, Repr

namespace Loaded

/-- Put a diagnostic behind those with a smaller line. -/
def insertByLine (d : Diagnostic) : List Diagnostic → List Diagnostic
  | [] => [d]
  | e :: es => if d.line ≤ e.line then d :: e :: es else e :: insertByLine d es

/-- Sort by line; diagnostics of one line keep their order. -/
def sortByLine : List Diagnostic → List Diagnostic
  | [] => []
  | d :: ds => insertByLine d (sortByLine ds)

/-- The diagnostics in the order of their lines. -/
def diagnostics (loaded : Loaded) : List Diagnostic :=
  sortByLine (Notice.diagnostics loaded.notices)

def events (loaded : Loaded) : List Event := loaded.notices.map (·.event)

def ofDocument (document : Document) (options : LoadOptions) : Loaded :=
  let sections := Sections.ofLines document.lines
  let templateGroups := sections.groups .template
  let overwrittenGroups := sections.groups .overwritten
  let modeGroups := sections.groups .mode
  let valueGroups := sections.groups .value
  let templateBlock := TemplateBlock.ofGroups templateGroups
  let template := (templateBlock.map (·.settings)).getD .empty
  let constraints := Constraints.ofGroups valueGroups
  let model : Model :=
    { document, template, constraints
      modes := Modes.ofGroups modeGroups
      baseline := template
      target := templateBlock.map (·.target .template) }
  let notices :=
    sections.notices
      ++ TemplateBlock.noticesOfGroups .template templateGroups
      ++ TemplateBlock.noticesOfGroups .overwritten overwrittenGroups
      ++ Modes.noticesOfGroups modeGroups
      ++ Constraints.noticesOfGroups valueGroups
  match TemplateBlock.ofGroups overwrittenGroups with
  | none => ⟨model, notices⟩
  | some block =>
    if options.legacyOverwritten then
      { model :=
          { model with
            baseline := Overwrite.apply constraints template block.settings
            target := some (block.target .overwritten) }
        notices := notices ++ Overwrite.notices constraints template block.settings }
    else ⟨model, notices ++ [.ignoredLegacy block.tagLine]⟩

end Loaded

def Model.ofDocument (document : Document) (options : LoadOptions) : Model :=
  (Loaded.ofDocument document options).model

end AnnotatedEnv
