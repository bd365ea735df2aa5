/-
Module: AnnotatedEnv.Toml.Basic
Purpose: Values and tables of a TOML document, and the rules on defining tables.
Main exports: Toml, TomlTable, TomlTable.update, TomlTable.define, TomlTable.openTable,
  TomlTable.openElement
A table may be defined once. Tables that only exist because a longer name passes through them are
implicit, and those that a dotted key brought in are open to dotted keys only.
-/
import AnnotatedEnv.OrderedMap

namespace AnnotatedEnv

/-- A value or a table. What a value tells beyond its kind is kept where a reader asks for it. -/
inductive Toml where
  | string (s : String)
  | integer (n : Int)
  | float
  | boolean (b : Bool)
  | datetime
  | array (items : List Toml)
  /-- A table written between braces; `dotted` if a dotted key inside the braces made it. -/
  | inline (dotted : Bool) (members : List (String × Toml))
  | table (implicit dotted : Bool) (members : List (String × Toml))
  /-- The tables of `[[name]]` headers in order. -/
  | tables (elements : List (List (String × Toml)))
  deriving Repr, Inhabited

/-- A table with what is known about its definition. -/
structure TomlTable where
  /-- No header of its own defined it. -/
  implicit : Bool := false
  /-- A dotted key made it. -/
  dotted : Bool := false
  members : List (String × Toml) := []
  deriving Repr, Inhabited

namespace TomlTable

def node (t : TomlTable) : Toml := .table t.implicit t.dotted t.members

def find? (t : TomlTable) (name : String) : Option Toml := Pairs.find? name t.members

def set (t : TomlTable) (name : String) (v : Toml) : TomlTable :=
  { t with members := Pairs.insert name v t.members }

/-- Change the last element of a list of tables. -/
def updateLast (f : TomlTable → Option TomlTable) :
    List (List (String × Toml)) → Option (List (List (String × Toml)))
  | [] => none
  | [ms] => (f { members := ms }).map fun t => [t.members]
  | ms :: rest => (updateLast f rest).map (ms :: ·)

/-- Change the table at the end of a path. Tables that are missing on the way are made; a dotted
path may not enter a table that a header defined. -/
def update (dotted : Bool) : (path : List String) → (f : TomlTable → Option TomlTable) →
    TomlTable → Option TomlTable
  | [], f, t => f t
  | name :: path, f, t =>
    match t.find? name with
    | none =>
      (update dotted path f { implicit := true, dotted }).map fun sub => t.set name sub.node
    | some (.table implicit isDotted members) =>
      if dotted && !implicit then none
      else (update dotted path f ⟨implicit, isDotted, members⟩).map fun sub => t.set name sub.node
    | some (.tables elements) =>
      (updateLast (update dotted path f) elements).map fun es => t.set name (.tables es)
    | some _ => none

/-- Give a name a value. A name has one value, and only a dotted key may add to a table that a
dotted key made. -/
def define (path : List String) (name : String) (v : Toml) (t : TomlTable) : Option TomlTable :=
  t.update true path fun sub =>
    if sub.dotted = path.isEmpty then none
    else if (sub.find? name).isSome then none
    else some (sub.set name v)

/-- Open the table of a header. -/
def openTable (parents : List String) (name : String) (root : TomlTable) : Option TomlTable :=
  root.update false parents fun parent =>
    match parent.find? name with
    | none => some (parent.set name (.table false false []))
    | some (.table true false members) => some (parent.set name (.table false false members))
    | some _ => none

/-- Open a further element of a list of tables. -/
def openElement (parents : List String) (name : String) (root : TomlTable) : Option TomlTable :=
  root.update false parents fun parent =>
    match parent.find? name with
    | none => some (parent.set name (.tables [[]]))
    | some (.tables elements) => some (parent.set name (.tables (elements ++ [[]])))
    | some _ => none

end TomlTable

/-! ### Tables between braces -/

namespace TomlInline

/-- Give the name at the end of a path a value in a table between braces. On the way only tables
may be entered that a dotted key of the same braces made. -/
def define : (path : List String) → (name : String) → (v : Toml) →
    List (String × Toml) → Option (List (String × Toml))
  | [], name, v, members =>
    match Pairs.find? name members with
    | some _ => none
    | none => some (members ++ [(name, v)])
  | step :: path, name, v, members =>
    match Pairs.find? step members with
    | none => (define path name v []).map fun sub => members ++ [(step, .inline true sub)]
    | some (.inline true sub) =>
      (define path name v sub).map fun sub => Pairs.replace step (.inline true sub) members
    | some _ => none

end TomlInline

end AnnotatedEnv
