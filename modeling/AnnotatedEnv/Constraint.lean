/-
Module: AnnotatedEnv.Constraint
Purpose: What a value tag says about its keys.
Main exports: InputKind, ConstraintFlags, ValueOptions, ValueSpec, ValueOptions.ofText,
  ValueSpec.ofPayload, Constraint
-/
import AnnotatedEnv.Tag

namespace AnnotatedEnv

open Text

/-! ### Kinds, flags and options -/

/-- How a value is edited. -/
inductive InputKind where
  | text
  | select
  | boolean
  | number
  deriving DecidableEq, Repr

namespace InputKind

/-- The option word of a kind. -/
def word : InputKind → String
  | text => "text"
  | select => "select"
  | boolean => "boolean"
  | number => "number"

def all : List InputKind := [text, select, boolean, number]

/-- The kind that an option word names; case counts. -/
def ofWord? (w : String) : Option InputKind :=
  all.find? fun kind => kind.word = w

theorem ofWord?_word (kind : InputKind) : ofWord? kind.word = some kind := by
  cases kind <;> decide

/-- A word is read as a kind exactly if it is the word of that kind. -/
theorem ofWord?_eq_some_iff (w : String) (kind : InputKind) :
    ofWord? w = some kind ↔ w = kind.word := by
  constructor
  · intro h
    have hfound := List.find?_some h
    exact (of_decide_eq_true hfound).symm
  · rintro rfl
    exact ofWord?_word kind

end InputKind

/-- What may change a constrained key. -/
structure ConstraintFlags where
  /-- Read-only for editors; modes may still override it. -/
  disabled : Bool := false
  /-- Nothing may change the value that was read first. -/
  constant : Bool := false
  deriving DecidableEq, Repr

/-- The options of a value tag. -/
structure ValueOptions where
  kind : Option InputKind := none
  flags : ConstraintFlags := {}
  deriving DecidableEq, Repr

namespace ValueOptions

/-- Add one option word. The first kind stays, flags add up, and an unknown word says
nothing. -/
def add (options : ValueOptions) (w : String) : ValueOptions :=
  match InputKind.ofWord? w with
  | some kind => { options with kind := options.kind.or (some kind) }
  | none =>
    if w = "disabled" then { options with flags := { options.flags with disabled := true } }
    else if w = "constant" then { options with flags := { options.flags with constant := true } }
    else options

/-- The options that the words of a text give. -/
def ofText (text : String) : ValueOptions :=
  ((words text.toList).map String.ofList).foldl add {}

end ValueOptions

/-! ### Payloads -/

/-- The keys of a value tag, each one once, and its options. -/
structure ValueSpec where
  keys : List String
  options : ValueOptions
  deriving DecidableEq, Repr

namespace ValueSpec

/-- The inside of the parentheses that begin here, and what follows them. Parentheses do not
nest. -/
def readGroup? : List Char → Option (List Char × List Char)
  | '(' :: cs =>
    let inside := cs.takeWhile fun c => c ≠ '(' && c ≠ ')'
    match cs.dropWhile fun c => c ≠ '(' && c ≠ ')' with
    | ')' :: rest => some (inside, rest)
    | _ => none
  | _ => none

/-- The options that may follow the keys: nothing, or one group that ends the text. -/
def readOptions? : List Char → Option (List Char)
  | [] => some []
  | rest =>
    match readGroup? (trimStart rest) with
    | some (options, []) => some options
    | _ => none

/-- The key list and the option text of a payload: `(list)(options)`, `key(options)`, `(list)`
or `key`. -/
def read? (cs : List Char) : Option (List Char × List Char) :=
  match readGroup? cs with
  | some (keys, rest) => (readOptions? rest).map (keys, ·)
  | none =>
    match cs.takeWhile isKeyChar with
    | [] => none
    | key => (readOptions? (cs.dropWhile isKeyChar)).map (key, ·)

/-- The usable keys of a comma-separated list, the first of equal ones. -/
def keysOf (list : List Char) : List String :=
  ((((pieces (· = ',') list).map trim).filter
    fun cs => !cs.isEmpty && cs.all isKeyChar).map String.ofList).eraseDups

/-- Read the payload of a value tag. -/
def ofPayload : Option String → Except TagError ValueSpec
  | none => .error (.missingPayload .value)
  | some payload =>
    match read? (trim payload.toList) with
    | none => .error (.invalidValue payload)
    | some (list, options) =>
      match keysOf list with
      | [] => .error (.noKeys payload)
      | keys => .ok { keys, options := .ofText (String.ofList options) }

end ValueSpec

/-- The constraint of a key. -/
structure Constraint where
  kind : InputKind
  /-- The allowed values in order; none for free-form kinds. -/
  values : List String
  flags : ConstraintFlags
  deriving DecidableEq, Repr

end AnnotatedEnv
