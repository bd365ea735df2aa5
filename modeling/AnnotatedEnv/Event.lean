/-
Module: AnnotatedEnv.Event
Purpose: Log events as values.
Main exports: Level, Source, Field, Event, Event.fieldNames
-/

namespace AnnotatedEnv

/-! ### Events -/

/-- How grave an event is, from the gravest on. -/
inductive Level where
  | error
  | warn
  | info
  | debug
  | trace
  deriving DecidableEq, Repr

namespace Level

/-- The place in the order of gravity; the gravest level has the smallest one. -/
def rank : Level → Nat
  | error => 1
  | warn => 2
  | info => 3
  | debug => 4
  | trace => 5

/-- The spelling in log lines. -/
def label : Level → String
  | error => "ERROR"
  | warn => "WARN"
  | info => "INFO"
  | debug => "DEBUG"
  | trace => "TRACE"

end Level

/-- The parts of the program that report. -/
inductive Source where
  /-- Cutting a document at its tags. -/
  | sections
  /-- Reading template-like sections. -/
  | templates
  /-- Reading presets. -/
  | modes
  /-- Reading value constraints. -/
  | constraints
  /-- Loading a document as a whole. -/
  | loading
  /-- Computing overrides. -/
  | overrides
  /-- A session on a document. -/
  | session
  /-- Reading session options. -/
  | options
  /-- A file on disk. -/
  | file
  deriving DecidableEq, Repr

/-- The spelling in log lines, which filters match by its beginning. -/
def Source.label : Source → String
  | sections => "envview_engine::sectionizer"
  | templates => "envview_engine::parsers::template"
  | modes => "envview_engine::parsers::mode"
  | constraints => "envview_engine::parsers::value"
  | loading => "envview_engine::engine"
  | overrides => "envview_engine::overrides"
  | session => "envview_session::session"
  | options => "envview_session::config"
  | file => "envview_cli::file_host"

/-- The value of one field of an event. -/
inductive Field where
  | number (n : Nat)
  | text (s : String)
  deriving DecidableEq, Repr

/-- One thing that happened. -/
structure Event where
  level : Level
  source : Source
  message : String
  fields : List (String × Field) := []
  deriving DecidableEq, Repr

/-- The names of all fields; the message is one of them. -/
def Event.fieldNames (e : Event) : List String := "message" :: e.fields.map Prod.fst

end AnnotatedEnv
