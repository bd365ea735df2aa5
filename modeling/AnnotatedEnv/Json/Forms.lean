/-
Module: AnnotatedEnv.Json.Forms
Purpose: The JSON forms of digests, patches, requests and options.
Main exports: Digest.ofJson?, LineEnding.ofJson?, LinePatch.ofJson?, Patch.ofJson?, ModeId.ofJson?,
  InputKind.ofJson?, ConstraintFlags.ofJson?, Request.ofJson?, LoadOptions.ofJson?,
  SessionOptions.ofJson?, and a `toJson` for each
A record is written as an object. It is read from an object, where unknown members are ignored, or
from the array of its fields. A choice without content may also be read as an object with the one
member `null`.
-/
import AnnotatedEnv.Json
import AnnotatedEnv.Override
import AnnotatedEnv.Patch
import AnnotatedEnv.Session.Options

namespace AnnotatedEnv

/-! ### Shapes -/

namespace Json

def toBool? : Json → Option Bool
  | bool b => some b
  | _ => none

def toText? : Json → Option String
  | string s => some s
  | _ => none

/-- A number that fits into sixty-four bits. -/
def toWord? : Json → Option Nat
  | number n => if 0 ≤ n ∧ n < 18446744073709551616 then some n.toNat else none
  | _ => none

/-- The fields of a record, `none` for those that are not given. An array gives the first fields
and must not be longer than the record. -/
def fields? (names : List String) : Json → Option (List (Option Json))
  | object members => some (names.map fun name => member? name members)
  | array items =>
    if items.length ≤ names.length then
      some (items.map some ++ List.replicate (names.length - items.length) none)
    else none
  | _ => none

/-- The name of a choice without content. -/
def choice? : Json → Option String
  | string s => some s
  | object [(name, null)] => some name
  | _ => none

/-- Read a field that may be missing. -/
def fieldOr {α : Type} (fallback : α) (read : Json → Option α) : Option Json → Option α
  | none => some fallback
  | some v => read v

end Json

/-- Read every element, or nothing at all. -/
def readAll {α β : Type} (read : α → Option β) : List α → Option (List β)
  | [] => some []
  | x :: xs =>
    match read x, readAll read xs with
    | some y, some ys => some (y :: ys)
    | _, _ => none

/-! ### Digests and line ends -/

/-- A digest is the text of its digits. -/
def Digest.toJson (d : Digest) : Json := .string d.render

def Digest.ofJson? : Json → Option Digest
  | .string s => (Digest.ofText s).toOption
  | _ => none

/-- A line end is a choice. -/
def LineEnding.toJson (e : LineEnding) : Json := .string e.label

def LineEnding.ofJson? (v : Json) : Option LineEnding :=
  v.choice?.bind fun name => [LineEnding.lf, LineEnding.crlf].find? (·.label = name)

/-! ### Patches -/

def LinePatch.toJson (p : LinePatch) : Json :=
  .object [("line_index", .nat p.index), ("new_line_text", .string p.text)]

def LinePatch.ofJson? (v : Json) : Option LinePatch :=
  match v.fields? ["line_index", "new_line_text"] with
  | some [some index, some text] =>
    match index.toWord?, text.toText? with
    | some index, some text => some ⟨index, text⟩
    | _, _ => none
  | _ => none

def Patch.toJson (p : Patch) : Json :=
  .object [("base_hash", p.base.toJson), ("instructions", .array (p.instructions.map (·.toJson)))]

/-- Read a patch. The instructions are taken as they come, neither sorted nor thinned out. -/
def Patch.ofJson? (v : Json) : Option Patch :=
  match v.fields? ["base_hash", "instructions"] with
  | some [some base, some (.array items)] =>
    match Digest.ofJson? base, readAll LinePatch.ofJson? items with
    | some base, some instructions => some ⟨base, instructions⟩
    | _, _ => none
  | _ => none

/-! ### Modes and constraints -/

/-- A mode id is its text. -/
def ModeId.toJson (id : ModeId) : Json := .string id.render

def ModeId.ofJson? : Json → Option ModeId
  | .string s => (ModeId.ofText s).toOption
  | _ => none

/-- An input kind is a choice. -/
def InputKind.toJson (k : InputKind) : Json := .string k.word

def InputKind.ofJson? (v : Json) : Option InputKind := v.choice?.bind InputKind.ofWord?

def ConstraintFlags.toJson (f : ConstraintFlags) : Json :=
  .object [("disabled", .bool f.disabled), ("constant", .bool f.constant)]

def ConstraintFlags.ofJson? (v : Json) : Option ConstraintFlags :=
  match v.fields? ["disabled", "constant"] with
  | some [some disabled, some constant] =>
    match disabled.toBool?, constant.toBool? with
    | some disabled, some constant => some ⟨disabled, constant⟩
    | _, _ => none
  | _ => none

/-! ### Requests -/

/-- A request is an object whose one member names the kind of request. -/
def Request.toJson : Request → Json
  | setValue key value =>
    .object [("set_value", .object [("key", .string key), ("value", .string value)])]
  | selectMode id => .object [("select_mode", id.toJson)]

/-- Read a request. The content of `set_value` has to be an object. -/
def Request.ofJson? : Json → Option Request
  | .object [(name, content)] =>
    if name = "set_value" then
      match content with
      | .object members =>
        match (Json.member? "key" members).bind Json.toText?,
          (Json.member? "value" members).bind Json.toText? with
        | some key, some value => some (.setValue key value)
        | _, _ => none
      | _ => none
    else if name = "select_mode" then (ModeId.ofJson? content).map .selectMode
    else none
  | _ => none

/-! ### Options -/

def LoadOptions.toJson (o : LoadOptions) : Json :=
  .object [("legacy_overwritten", .bool o.legacyOverwritten),
    ("cache_capacity", .nat o.cacheCapacity)]

/-- Read load options; a missing field has its default. -/
def LoadOptions.ofJson? (v : Json) : Option LoadOptions :=
  match v.fields? ["legacy_overwritten", "cache_capacity"] with
  | some [legacy, capacity] =>
    match Json.fieldOr false Json.toBool? legacy, Json.fieldOr 64 Json.toWord? capacity with
    | some legacy, some capacity => some ⟨legacy, capacity⟩
    | _, _ => none
  | _ => none

def SessionOptions.toJson (o : SessionOptions) : Json :=
  .object [("load", o.load.toJson), ("verify_before_override", .bool o.verifyBeforeOverride),
    ("minimal_patches", .bool o.minimalPatches)]

/-- Read session options; a missing field has its default. -/
def SessionOptions.ofJson? (v : Json) : Option SessionOptions :=
  match v.fields? ["load", "verify_before_override", "minimal_patches"] with
  | some [load, verify, minimal] =>
    match Json.fieldOr {} LoadOptions.ofJson? load, Json.fieldOr true Json.toBool? verify,
      Json.fieldOr false Json.toBool? minimal with
    | some load, some verify, some minimal => some ⟨load, verify, minimal⟩
    | _, _, _ => none
  | _ => none

end AnnotatedEnv
