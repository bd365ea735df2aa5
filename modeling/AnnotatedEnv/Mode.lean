/-
Module: AnnotatedEnv.Mode
Purpose: Mode ids `scope.mode` and the presets that carry them.
Main exports: ModeId, ModeId.render, ModeId.ofPayload, ModeId.ofText, ModeGroup
-/
import AnnotatedEnv.OrderedMap
import AnnotatedEnv.Tag

namespace AnnotatedEnv

open Text

/-- The id of a preset. -/
structure ModeId where
  /-- The group of presets that stand for one choice. -/
  scope : String
  /-- The preset within the scope. -/
  mode : String
  deriving DecidableEq, Repr

namespace ModeId

/-- The written form: both parts around a dot. -/
def render (id : ModeId) : String := id.scope ++ "." ++ id.mode

/-- Two non-empty runs of word characters around one dot. -/
def read? (cs : List Char) : Option ModeId :=
  match cs.takeWhile isWord, cs.dropWhile isWord with
  | s :: ss, '.' :: m :: ms =>
    if (m :: ms).all isWord then some ⟨String.ofList (s :: ss), String.ofList (m :: ms)⟩ else none
  | _, _ => none

/-- Read a written id; blanks around it do not count. -/
def ofText (text : String) : Except TagError ModeId :=
  match read? (trim text.toList) with
  | some id => .ok id
  | none => .error (.invalidMode text)

/-- Read the payload of a mode tag. -/
def ofPayload : Option String → Except TagError ModeId
  | none => .error (.missingPayload .mode)
  | some payload => ofText payload

end ModeId

/-- The overrides that selecting a mode brings in. -/
structure ModeGroup where
  id : ModeId
  /-- The line of the first tag with this id. -/
  tagLine : Nat
  overrides : Settings
  deriving DecidableEq, Repr

end AnnotatedEnv
