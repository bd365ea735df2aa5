/-
Module: AnnotatedEnv.Tag
Purpose: Finding the tag marker of a line and telling its kind.
Main exports: TagKind, Tag, TagError, LineScan, scanLine
A marker is the comment opener `//` at the start of the line or after a blank, then `@` and a
name. It may follow other content, and the first marker of a line decides.
-/
import AnnotatedEnv.Text.Blank
import AnnotatedEnv.Text.Word

namespace AnnotatedEnv

open Text

/-! ### Kinds and errors -/

/-- The known tags; each one opens a section of its own name. -/
inductive TagKind where
  /-- Default assignments. -/
  | template
  /-- A preset of overrides. -/
  | mode
  /-- Allowed values and flags of keys. -/
  | value
  /-- A second block of assignments over the template, kept for old files. -/
  | overwritten
  deriving DecidableEq, Repr

namespace TagKind

/-- The name written after `@`. -/
def name : TagKind → String
  | template => "env-template"
  | mode => "env-mode"
  | value => "env-value"
  | overwritten => "env-overwritten"

def all : List TagKind := [template, mode, value, overwritten]

def ofName? (name : String) : Option TagKind :=
  all.find? fun kind => kind.name = name

/-- The word by which reports call the section. -/
def label : TagKind → String
  | template => "template"
  | mode => "mode"
  | value => "value"
  | overwritten => "overwritten"

theorem ofName?_name (kind : TagKind) : ofName? kind.name = some kind := by
  cases kind <;> decide

end TagKind

structure Tag where
  kind : TagKind
  /-- The trimmed text after `:`, if the name is followed by one. -/
  payload : Option String
  deriving DecidableEq, Repr

/-- Why a marker or its payload is refused. -/
inductive TagError where
  /-- The name belongs to no kind. -/
  | unknownName (name : String)
  /-- The tag needs a payload and has none. -/
  | missingPayload (kind : TagKind)
  /-- The payload is no `scope.mode`. -/
  | invalidMode (payload : String)
  /-- The payload has none of the forms of a value tag. -/
  | invalidValue (payload : String)
  /-- The payload has a form of a value tag but names no key. -/
  | noKeys (payload : String)
  deriving DecidableEq, Repr

def TagError.message : TagError → String
  | unknownName name => "unknown tag '@" ++ name ++ "'"
  | missingPayload kind => "'@" ++ kind.name ++ "' requires a ':' payload"
  | invalidMode payload => "invalid mode payload '" ++ payload ++ "', expected <scope>.<mode>"
  | invalidValue payload => "invalid value payload '" ++ payload ++ "'"
  | noKeys payload => "value payload '" ++ payload ++ "' names no keys"

/-! ### Scanning a line -/

/-- What a line says about tags. -/
inductive LineScan where
  | plain
  | tag (tag : Tag)
  /-- A marker whose name is unknown. -/
  | unknown (name : String)
  deriving DecidableEq, Repr

/-- The name of the marker that begins here, and the text after the name. Blanks may stand
between `//` and `@`; from `@` on the marker must stay on one line. -/
def markerHere? : List Char → Option (List Char × List Char)
  | '/' :: '/' :: cs =>
    match trimStart cs with
    | '@' :: c :: rest =>
      if c.isAlpha ∧ '\n' ∉ rest then
        some (c :: rest.takeWhile isNameChar, rest.dropWhile isNameChar)
      else none
    | _ => none
  | _ => none

/-- The first marker of a text. `fresh` says whether a marker may begin here, as it may at the
start and after a blank. -/
def findMarker? : (fresh : Bool) → List Char → Option (List Char × List Char)
  | _, [] => none
  | fresh, c :: cs =>
    if fresh then (markerHere? (c :: cs)).or (findMarker? (isBlank c) cs)
    else findMarker? (isBlank c) cs

/-- The payload that the text after a tag name holds. -/
def payloadOf : List Char → Option String
  | ':' :: cs => some (String.ofList (trim cs))
  | _ => none

def scanLine (line : String) : LineScan :=
  match findMarker? true line.toList with
  | none => .plain
  | some (name, rest) =>
    match TagKind.ofName? (String.ofList name) with
    | some kind => .tag { kind, payload := payloadOf rest }
    | none => .unknown (String.ofList name)

end AnnotatedEnv
