/-
Module: AnnotatedEnv.Override
Purpose: Changing the effective configuration by setting a key or selecting a mode.
Main exports: Request, OverrideError, Outcome, Request.compute
Nothing here touches the lines of a document. A constant key is left out of every change, so it
keeps the value that was read first.
-/
import AnnotatedEnv.Model
import AnnotatedEnv.Text.Quoted

namespace AnnotatedEnv

/-! ### Requests -/

/-- A change that somebody asks for. -/
inductive Request where
  /-- Set one key. -/
  | setValue (key value : String)
  /-- Put a mode's overrides over the effective configuration. -/
  | selectMode (id : ModeId)
  deriving DecidableEq, Repr

/-- The request as log lines show it. -/
def Request.quoted : Request → String
  | setValue key value =>
    "SetValue \x7b key: " ++ Text.quoteText key ++ ", value: " ++ Text.quoteText value ++ " \x7d"
  | selectMode id =>
    "SelectMode(ModeId \x7b scope: " ++ Text.quoteText id.scope ++ ", mode: "
      ++ Text.quoteText id.mode ++ " \x7d)"

inductive OverrideError where
  /-- No group has this id. -/
  | unknownMode (id : ModeId)
  /-- The key is not in the configuration, so no line can hold it. -/
  | unknownKey (key : String)
  deriving DecidableEq, Repr

def OverrideError.message : OverrideError → String
  | unknownMode id => "unknown mode: " ++ id.render
  | unknownKey key => "unknown key: " ++ key

/-! ### Outcomes -/

/-- The configuration after a request. -/
structure Outcome where
  effective : Settings
  /-- The accepted keys and values; none if the request changes nothing. -/
  changes : Settings
  deriving DecidableEq, Repr

/-- Whether nothing was accepted. -/
def Outcome.isNoop (outcome : Outcome) : Bool := outcome.changes.isEmpty

/-- Put accepted changes into a configuration. -/
def Outcome.ofChanges (effective changes : Settings) : Outcome :=
  ⟨effective.replaceAll changes.entries, changes⟩

namespace Request

/-- Whether a mode may set a key: it is not constant, and the configuration has it. -/
def admits (m : Model) (effective : Settings) (key : String) : Bool :=
  !m.isConstant key && effective.contains key

/-- Apply a request to the effective configuration. Setting a constant key is accepted and
changes nothing. -/
def compute (m : Model) (effective : Settings) : Request → Except OverrideError Outcome
  | setValue key value =>
    if m.isConstant key then .ok (.ofChanges effective .empty)
    else if effective.contains key then
      .ok (.ofChanges effective (OrderedMap.empty.insert key value))
    else .error (.unknownKey key)
  | selectMode id =>
    match m.modes.get? id with
    | none => .error (.unknownMode id)
    | some group =>
      .ok (.ofChanges effective (group.overrides.filter fun e => admits m effective e.1))

/-- The log events of applying a request: which keys it names in vain. -/
def events (m : Model) (effective : Settings) : Request → List Event
  | setValue key _ =>
    if m.isConstant key then
      [{ level := .debug, source := .overrides
         message := "ignoring write to constant key", fields := [("key", .text key)] }]
    else []
  | selectMode id =>
    match m.modes.get? id with
    | none => []
    | some group =>
      group.overrides.keys.filterMap fun key =>
        if m.isConstant key then
          some
            { level := .debug, source := .overrides
              message := "mode override skips constant key", fields := [("key", .text key)] }
        else if !effective.contains key then
          some
            { level := .debug, source := .overrides
              message := "mode override names key outside template"
              fields := [("key", .text key)] }
        else none

end Request

end AnnotatedEnv
