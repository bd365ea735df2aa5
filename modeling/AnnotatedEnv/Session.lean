/-
Module: AnnotatedEnv.Session
Purpose: One open document: overriding it, and following what others do to it.
Main exports: SessionState, SessionError, Applied, Session.start, Session.override,
  Session.externalChange, Session.reload, Call, Answer, Call.body
An override verifies the document, computes the change, writes it through the host, reads the
result back and loads it. The state changes at the end only, so a failure in between leaves it as
it was, apart from what verification took over.
-/
import AnnotatedEnv.Library
import AnnotatedEnv.Session.Dialogue
import AnnotatedEnv.Session.Options

namespace AnnotatedEnv

/-! ### State and errors -/

/-- What a session holds between calls. -/
structure SessionState where
  library : Library
  held : Held
  effective : Settings
  /-- The accepted keys and values of the last override. -/
  lastChange : Settings

namespace SessionState

def model (s : SessionState) : Model := s.held.model

/-- Load a document and start anew from its baseline. -/
def takeOver (s : SessionState) (document : Document) : SessionState :=
  let (held, library) := s.library.load document
  { s with library, held, effective := held.model.baseline }

end SessionState

inductive SessionError where
  /-- Another override is under way. -/
  | busy
  | override (error : OverrideError)
  | writeBack (error : WriteBackError)
  | host (error : HostError)
  deriving DecidableEq, Repr

namespace SessionError

/-- The error of a request that gives no edit. -/
def ofEdit : EditError → SessionError
  | .override e => .override e
  | .writeBack e => .writeBack e

def message : SessionError → String
  | busy => "session busy: an override is already being applied"
  | override e => "override rejected: " ++ e.message
  | writeBack e => "patch generation failed: " ++ e.message
  | host e => "host error: " ++ e.message

/-- The wording of what lies behind the error, from near to far. -/
def causes : SessionError → List String
  | busy => []
  | override e => [e.message]
  | writeBack e => [e.message]
  | host e => e.message :: e.causes

/-- Whether the same call may succeed later. -/
def isRetryable : SessionError → Bool
  | busy => true
  | host (.patch (.baseMismatch ..)) => true
  | _ => false

end SessionError

structure Applied where
  /-- What was handed to the host; nothing if nothing changed. -/
  patch : Patch
  changes : Settings
  deriving DecidableEq, Repr

/-! ### Log events -/

namespace SessionEvent

def make (level : Level) (message : String) (fields : List (String × Field) := []) : Event :=
  { level, source := .session, message, fields }

def opened (m : Model) : Event :=
  make .info "opened document session"
    [("keys", .number m.template.size), ("modes", .number m.modes.size)]

/-- An override came while another one was under way. -/
def rejected : Event := make .debug "rejecting override while another is in flight"

/-- Verification found changed content. -/
def changedOutside (d : Document) : Event :=
  make .warn "document changed outside session, re-parsing" [("hash", .text d.digest.short)]

def changedNothing (r : Request) : Event :=
  make .debug "override changed nothing" [("request", .text r.quoted)]

/-- An override was written and read back. -/
def applied (changes : Settings) (patch : Patch) : Event :=
  make .info "applied override"
    [("changes", .number changes.size), ("instructions", .number patch.size)]

/-- The content is what the session holds. -/
def unchanged : Event := make .debug "document unchanged, keeping effective configuration"

/-- Somebody else changed the content. -/
def externalEdit (d : Document) : Event :=
  make .warn "external edit detected, re-parsing" [("hash", .text d.digest.short)]

end SessionEvent

/-! ### Operations -/

namespace Session

/-- Open the host's document. What the cache for models keeps is left to it. -/
def start (options : SessionOptions) (cache : Cache := .limited) :
    Dialogue (Except HostError SessionState) :=
  .read fun
    | .error e => .done (.error e)
    | .ok lines =>
      let document := Document.ofLines lines
      let library := Library.new options.load cache
      let (held, after) := library.load document
      .logAll (library.loadEvents document ++ [SessionEvent.opened held.model])
        (.done (.ok ⟨after, held, held.model.baseline, .empty⟩))

/-- Take over a document that was changed by somebody else; `event` tells of it. -/
def adopt (s : SessionState) (document : Document) (event : Event) : Dialogue SessionState :=
  .logAll (event :: s.library.loadEvents document) (.done (s.takeOver document))

/-- Read the document again if the options ask for it, and take over what changed. -/
def verify (options : SessionOptions) (s : SessionState) :
    Dialogue (Except HostError SessionState) :=
  if options.verifyBeforeOverride then
    .read fun
      | .error e => .done (.error e)
      | .ok lines =>
        let document := Document.ofLines lines
        if document.digest = s.model.document.digest then .done (.ok s)
        else (adopt s document (SessionEvent.changedOutside document)).bind fun s => .done (.ok s)
  else .done (.ok s)

/-- The patch that is handed to the host. -/
def patchToSend (options : SessionOptions) (m : Model) (edit : Edit) : Patch :=
  if options.minimalPatches then edit.patch.retainChanged m.document else edit.patch

/-- Write an edit through the host and load what it made of it. -/
def writeThrough (options : SessionOptions) (s : SessionState) (edit : Edit) :
    Dialogue (SessionState × Except SessionError Applied) :=
  let patch := patchToSend options s.model edit
  .apply patch fun
    | .error e => .done (s, .error (.host e))
    | .ok () =>
      .save fun
        | .error e => .done (s, .error (.host e))
        | .ok () =>
          .read fun
            | .error e => .done (s, .error (.host e))
            | .ok lines =>
              let document := Document.ofLines lines
              let (held, library) := s.library.load document
              .logAll (s.library.loadEvents document ++ [SessionEvent.applied edit.changes patch])
                (.done (⟨library, held, edit.effective, edit.changes⟩, .ok ⟨patch, edit.changes⟩))

/-- Compute an override on a verified state and write it. -/
def perform (options : SessionOptions) (request : Request) (s : SessionState) :
    Dialogue (SessionState × Except SessionError Applied) :=
  .logAll (request.events s.model s.effective)
    (match s.model.edit s.effective request with
    | .error e => .done (s, .error (.ofEdit e))
    | .ok edit =>
      if edit.isNoop then
        .log (SessionEvent.changedNothing request)
          (.done ({ s with effective := edit.effective, lastChange := edit.changes },
            .ok ⟨edit.patch, .empty⟩))
      else writeThrough options s edit)

def override (options : SessionOptions) (request : Request) (s : SessionState) :
    Dialogue (SessionState × Except SessionError Applied) :=
  (verify options s).bind fun
    | .error e => .done (s, .error (.host e))
    | .ok s => perform options request s

/-- Compare a document with the open one. Equal content keeps the effective configuration,
anything else is loaded. -/
def refresh (s : SessionState) (document : Document) :
    Dialogue (SessionState × Except SessionError (List Diagnostic)) :=
  if document.digest = s.model.document.digest then
    .log SessionEvent.unchanged (.done (s, .ok s.held.diagnostics))
  else
    (adopt s document (SessionEvent.externalEdit document)).bind fun s =>
      .done (s, .ok s.held.diagnostics)

/-- Somebody says that the document now has these lines. -/
def externalChange (lines : List String) (s : SessionState) :
    Dialogue (SessionState × Except SessionError (List Diagnostic)) :=
  refresh s (.ofLines lines)

def reload (s : SessionState) :
    Dialogue (SessionState × Except SessionError (List Diagnostic)) :=
  .read fun
    | .error e => .done (s, .error (.host e))
    | .ok lines => refresh s (.ofLines lines)

end Session

/-! ### Calls -/

inductive Call where
  | override (request : Request)
  | externalChange (lines : List String)
  | reload
  deriving DecidableEq, Repr

inductive Answer where
  | applied (applied : Applied)
  | refreshed (diagnostics : List Diagnostic)
  deriving DecidableEq, Repr

/-- Whether at most one call of this kind may be under way. -/
def Call.isOverride : Call → Bool
  | override _ => true
  | _ => false

/-- What a call does once it has the state to itself. -/
def Call.body (options : SessionOptions) (s : SessionState) :
    Call → Dialogue (SessionState × Except SessionError Answer)
  | override request =>
    (Session.override options request s).bind fun (s, r) => .done (s, r.map .applied)
  | externalChange lines =>
    (Session.externalChange lines s).bind fun (s, r) => .done (s, r.map .refreshed)
  | reload => (Session.reload s).bind fun (s, r) => .done (s, r.map .refreshed)

end AnnotatedEnv
