/-
Module: AnnotatedEnv.Toml.Text
Purpose: Blanks, comments, strings and keys of TOML.
Main exports: Toml.skipSpace, Toml.skipComment, Toml.endLine?, Toml.readString?, Toml.maxDepth,
Toml.readKey?
A reader takes what it recognises from the front of a text and returns the rest.
-/
import AnnotatedEnv.Text.Blank

namespace AnnotatedEnv.Toml

/-! ### Blanks and comments -/

/-- Blanks within a line. -/
def isSpace (c : Char) : Bool := c = ' ' || c = '\t'

/-- Characters that a comment, and every text on one line, may hold: no control character but the
tab. -/
def isLineChar (c : Char) : Bool := c = '\t' || (' ' ≤ c && c ≠ '\x7f')

/-- Drop the blanks at the front. -/
def skipSpace (cs : List Char) : List Char := cs.dropWhile isSpace

def skipComment : List Char → List Char
  | '#' :: cs => cs.dropWhile isLineChar
  | cs => cs

def skipNewline? : List Char → Option (List Char)
  | '\n' :: cs => some cs
  | '\r' :: '\n' :: cs => some cs
  | _ => none

/-- Drop what may follow an expression up to the end of its line: blanks and a comment. -/
def endLine? (cs : List Char) : Option (List Char) :=
  match skipComment (skipSpace cs) with
  | [] => some []
  | rest => skipNewline? rest

/-- Drop blanks, comments and line ends. Where `n` is the length of the text, all are dropped. -/
def skipTrivia : (n : Nat) → List Char → List Char
  | 0, cs => cs
  | n + 1, cs =>
    match skipNewline? (skipComment (skipSpace cs)) with
    | some rest => skipTrivia n rest
    | none => skipComment (skipSpace cs)

/-! ### Strings -/

def hexValue? : List Char → Option Nat
  | [] => some 0
  | cs =>
    cs.foldl
      (fun acc c =>
        acc.bind fun n =>
          if c.isDigit then some (n * 16 + (c.toNat - 48))
          else if 'a' ≤ c ∧ c ≤ 'f' then some (n * 16 + (c.toNat - 87))
          else if 'A' ≤ c ∧ c ≤ 'F' then some (n * 16 + (c.toNat - 55))
          else none)
      (some 0)

/-- The character that hexadecimal digits name. -/
def charOfHex? (digits : List Char) : Option Char :=
  match hexValue? digits with
  | some n => if h : n.isValidChar then some (Char.ofNatAux n h) else none
  | none => none

def escaped? : Char → Option Char
  | 'b' => some '\x08'
  | 't' => some '\t'
  | 'n' => some '\n'
  | 'f' => some '\x0c'
  | 'r' => some '\r'
  | '"' => some '"'
  | '\\' => some '\\'
  | _ => none

/-- Put a character in front of what was read. -/
def addChar (c : Char) : Option (List Char × List Char) → Option (List Char × List Char)
  | some (text, rest) => some (c :: text, rest)
  | none => none

/-- The rest of a string in double quotes on one line. -/
def readBasic? : List Char → Option (List Char × List Char)
  | [] => none
  | '"' :: rest => some ([], rest)
  | '\\' :: 'u' :: a :: b :: c :: d :: rest =>
    match charOfHex? [a, b, c, d] with
    | some x => addChar x (readBasic? rest)
    | none => none
  | '\\' :: 'U' :: a :: b :: c :: d :: e :: f :: g :: h :: rest =>
    match charOfHex? [a, b, c, d, e, f, g, h] with
    | some x => addChar x (readBasic? rest)
    | none => none
  | '\\' :: c :: rest =>
    match escaped? c with
    | some x => addChar x (readBasic? rest)
    | none => none
  | c :: rest => if isLineChar c && c ≠ '\\' then addChar c (readBasic? rest) else none

/-- The rest of a string in single quotes on one line; there are no escapes. -/
def readLiteral? : List Char → Option (List Char × List Char)
  | [] => none
  | '\'' :: rest => some ([], rest)
  | c :: rest => if isLineChar c then addChar c (readLiteral? rest) else none

/-- Whether only blanks stand before the next line end, so that a backslash joins the lines. -/
def joinsLines (cs : List Char) : Bool := (skipNewline? (skipSpace cs)).isSome

/-- The rest of a string between three double quotes. Up to two quotes may stand in front of the
closing ones. `skipping` drops blanks and line ends after a joining backslash. -/
def readBasicLines? : (skipping : Bool) → List Char → Option (List Char × List Char)
  | _, [] => none
  | _, '"' :: '"' :: '"' :: '"' :: '"' :: rest => some (['"', '"'], rest)
  | _, '"' :: '"' :: '"' :: '"' :: rest => some (['"'], rest)
  | _, '"' :: '"' :: '"' :: rest => some ([], rest)
  | _, '\\' :: 'u' :: a :: b :: c :: d :: rest =>
    match charOfHex? [a, b, c, d] with
    | some x => addChar x (readBasicLines? false rest)
    | none => none
  | _, '\\' :: 'U' :: a :: b :: c :: d :: e :: f :: g :: h :: rest =>
    match charOfHex? [a, b, c, d, e, f, g, h] with
    | some x => addChar x (readBasicLines? false rest)
    | none => none
  | _, '\\' :: c :: rest =>
    match escaped? c with
    | some x => addChar x (readBasicLines? false rest)
    | none => if joinsLines (c :: rest) then readBasicLines? true (c :: rest) else none
  | skipping, '\r' :: '\n' :: rest =>
    if skipping then readBasicLines? true rest else addChar '\n' (readBasicLines? false rest)
  | skipping, '\n' :: rest =>
    if skipping then readBasicLines? true rest else addChar '\n' (readBasicLines? false rest)
  | skipping, c :: rest =>
    if skipping && isSpace c then readBasicLines? true rest
    else if isLineChar c && c ≠ '\\' then addChar c (readBasicLines? false rest)
    else none

/-- The rest of a string between three single quotes. -/
def readLiteralLines? : List Char → Option (List Char × List Char)
  | [] => none
  | '\'' :: '\'' :: '\'' :: '\'' :: '\'' :: rest => some (['\'', '\''], rest)
  | '\'' :: '\'' :: '\'' :: '\'' :: rest => some (['\''], rest)
  | '\'' :: '\'' :: '\'' :: rest => some ([], rest)
  | '\r' :: '\n' :: rest => addChar '\n' (readLiteralLines? rest)
  | '\n' :: rest => addChar '\n' (readLiteralLines? rest)
  | c :: rest => if isLineChar c then addChar c (readLiteralLines? rest) else none

/-- Drop the line end right behind the opening quotes of a string over several lines. -/
def skipFirstNewline (cs : List Char) : List Char := (skipNewline? cs).getD cs

/-- Read a string of any of the four kinds. -/
def readString? : List Char → Option (List Char × List Char)
  | '"' :: '"' :: '"' :: cs => readBasicLines? false (skipFirstNewline cs)
  | '"' :: cs => readBasic? cs
  | '\'' :: '\'' :: '\'' :: cs => readLiteralLines? (skipFirstNewline cs)
  | '\'' :: cs => readLiteral? cs
  | _ => none

/-! ### Keys -/

/-- Characters of a key without quotes. -/
def isBareKeyChar (c : Char) : Bool := c.isAlphanum || c = '_' || c = '-'

def readKeyPart? : List Char → Option (String × List Char)
  | '"' :: cs => (readBasic? cs).map fun (text, rest) => (String.ofList text, rest)
  | '\'' :: cs => (readLiteral? cs).map fun (text, rest) => (String.ofList text, rest)
  | cs =>
    match cs.takeWhile isBareKeyChar with
    | [] => none
    | key => some (String.ofList key, cs.dropWhile isBareKeyChar)

/-- The parts of a key, separated by dots with blanks around them, and the rest behind further
blanks. Where `n` is the length of the text, all parts are read. -/
def readKeyParts? : (n : Nat) → List Char → Option (List String × List Char)
  | 0, _ => none
  | n + 1, cs =>
    match readKeyPart? (skipSpace cs) with
    | none => none
    | some (part, rest) =>
      match skipSpace rest with
      | '.' :: rest => (readKeyParts? n rest).map fun (parts, rest) => (part :: parts, rest)
      | rest => some ([part], rest)

/-- How deep values stand in each other at most: the number of arrays and inline tables that are
open at one place, and the number of parts of one key. -/
def maxDepth : Nat := 79

/-- A key as the path to its table and the name in it. -/
def readKey? (cs : List Char) : Option (List String × String × List Char) :=
  match readKeyParts? (cs.length + 1) cs with
  | none => none
  | some (parts, rest) =>
    if parts.length ≤ maxDepth then parts.getLast?.map (parts.dropLast, ·, rest) else none

end AnnotatedEnv.Toml
