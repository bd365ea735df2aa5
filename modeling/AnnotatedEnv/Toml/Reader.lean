/-
Module: AnnotatedEnv.Toml.Reader
Purpose: Reading a TOML document.
Main exports: Toml.readValue?, Toml.read?
Any fault anywhere in the text refuses the whole document.
-/
import AnnotatedEnv.Toml.Scalar

namespace AnnotatedEnv.Toml

/-! ### Values -/

mutual

/-- Read a value in which arrays and inline tables stand in each other at most `depth` deep. `n`
bounds the steps; the length of the text is enough. -/
def readValueUpTo : (n depth : Nat) → List Char → Option (Toml × List Char)
  | 0, _, _ => none
  | _ + 1, 0, '[' :: _ => none
  | n + 1, depth + 1, '[' :: cs => readItems n depth [] (skipTrivia cs.length cs)
  | _ + 1, 0, '\x7b' :: _ => none
  | n + 1, depth + 1, '\x7b' :: cs =>
    match skipSpace cs with
    | '\x7d' :: rest => some (.inline false [], rest)
    | rest => readMembers n depth [] rest
  | _ + 1, _, '"' :: cs =>
    (readString? ('"' :: cs)).map fun (text, rest) => (.string (String.ofList text), rest)
  | _ + 1, _, '\'' :: cs =>
    (readString? ('\'' :: cs)).map fun (text, rest) => (.string (String.ofList text), rest)
  | _ + 1, _, cs => readScalar? cs

/-- Read the items of an array and its end; `before` holds the items read so far, the last one
first. A comma may follow the last item. -/
def readItems : (n depth : Nat) → (before : List Toml) → List Char → Option (Toml × List Char)
  | 0, _, _, _ => none
  | _ + 1, _, before, ']' :: rest => some (.array before.reverse, rest)
  | n + 1, depth, before, cs =>
    match readValueUpTo n depth cs with
    | none => none
    | some (v, rest) =>
      match skipTrivia rest.length rest with
      | ']' :: rest => some (.array (v :: before).reverse, rest)
      | ',' :: rest => readItems n depth (v :: before) (skipTrivia rest.length rest)
      | _ => none

/-- Read the members of a table between braces and its end; all stand on one line. -/
def readMembers : (n depth : Nat) → (before : List (String × Toml)) → List Char →
    Option (Toml × List Char)
  | 0, _, _, _ => none
  | n + 1, depth, before, cs =>
    match readKey? cs with
    | some (path, name, '=' :: rest) =>
      match readValueUpTo n depth (skipSpace rest) with
      | none => none
      | some (v, rest) =>
        match TomlInline.define path name v before, skipSpace rest with
        | some members, '\x7d' :: rest => some (.inline false members, rest)
        | some members, ',' :: rest => readMembers n depth members rest
        | _, _ => none
    | _ => none

end

/-- Read a value from the front of a text. -/
def readValue? (cs : List Char) : Option (Toml × List Char) :=
  readValueUpTo (cs.length + 1) maxDepth cs

/-! ### Documents -/

/-- A document that is read up to some line: its tables, and the path of the table that the next
lines belong to. -/
structure Draft where
  root : TomlTable := {}
  current : List String := []

/-- Take in the header whose text begins behind the first bracket. -/
def readHeader? (draft : Draft) (cs : List Char) : Option (Draft × List Char) :=
  match cs with
  | '[' :: cs =>
    match readKey? cs with
    | some (path, name, ']' :: ']' :: rest) =>
      (draft.root.openElement path name).map fun root => (⟨root, path ++ [name]⟩, rest)
    | _ => none
  | _ =>
    match readKey? cs with
    | some (path, name, ']' :: rest) =>
      (draft.root.openTable path name).map fun root => (⟨root, path ++ [name]⟩, rest)
    | _ => none

/-- Take in a key with its value. -/
def readDefinition? (draft : Draft) (cs : List Char) : Option (Draft × List Char) :=
  match readKey? cs with
  | some (path, name, '=' :: rest) =>
    match readValue? (skipSpace rest) with
    | none => none
    | some (v, rest) =>
      (draft.root.update false draft.current (·.define path name v)).map fun root =>
        ({ draft with root }, rest)
  | _ => none

def readLine? (draft : Draft) (cs : List Char) : Option (Draft × List Char) :=
  let step :=
    match skipSpace cs with
    | [] => some (draft, [])
    | '#' :: rest => some (draft, '#' :: rest)
    | '\n' :: rest => some (draft, '\n' :: rest)
    | '\r' :: rest => some (draft, '\r' :: rest)
    | '[' :: rest => readHeader? draft rest
    | rest => readDefinition? draft rest
  match step with
  | some (draft, rest) => (endLine? rest).map (draft, ·)
  | none => none

/-- Take in the lines of a text; `n` bounds their number. -/
def readLines? : (n : Nat) → Draft → List Char → Option Draft
  | _, draft, [] => some draft
  | 0, _, _ => none
  | n + 1, draft, cs =>
    match readLine? draft cs with
    | some (draft, rest) => readLines? n draft rest
    | none => none

/-- Read a document; a byte order mark at the start does not count. -/
def read? (text : String) : Option (List (String × Toml)) :=
  let cs :=
    match text.toList with
    | '\ufeff' :: cs => cs
    | cs => cs
  (readLines? (cs.length + 1) {} cs).map (·.root.members)

end AnnotatedEnv.Toml
