/-
Module: AnnotatedEnv.Assignment
Purpose: Lines of the form `KEY=VALUE`: reading them, writing them, and uncommenting them.
Main exports: Assignment.parse?, Assignment.parseAll, Assignment.render, uncomment
A line may open with `export`, blanks around `=` do not count, an unquoted value ends at the
first `#`, single quotes and backticks hold text as it is, and double quotes hold escapes.
-/
import AnnotatedEnv.OrderedMap
import AnnotatedEnv.Text.Blank
import AnnotatedEnv.Text.Word

namespace AnnotatedEnv

open Text

/-- A key with the value that its line gives it. -/
structure Assignment where
  key : String
  value : String
  deriving DecidableEq, Repr

namespace Assignment

/-! ### Reading a value -/

/-- The character that an escape letter stands for inside double quotes. -/
def escapeMeaning? : Char → Option Char
  | 'n' => some '\n'
  | 'r' => some '\r'
  | 't' => some '\t'
  | '"' => some '"'
  | '\\' => some '\\'
  | _ => none

/-- The text up to the closing double quote, with its escapes replaced. An escape without a
meaning stays as it is written; without a closing quote there is no text. -/
def unescape? : List Char → Option (List Char)
  | [] => none
  | '"' :: _ => some []
  | '\\' :: [] => none
  | '\\' :: c :: cs =>
    match escapeMeaning? c with
    | some m => (unescape? cs).map (m :: ·)
    | none => (unescape? cs).map ('\\' :: c :: ·)
  | c :: cs => (unescape? cs).map (c :: ·)

/-- The text before the first occurrence of `quote`, if there is one. -/
def untilQuote? (quote : Char) : List Char → Option (List Char)
  | [] => none
  | c :: cs => if c = quote then some [] else (untilQuote? quote cs).map (c :: ·)

/-- A value without quotes ends at the first `#` and is trimmed. -/
def bareValue (cs : List Char) : List Char :=
  trim (cs.takeWhile (· ≠ '#'))

/-- The value that the text after `=` gives. A quote that never closes is ordinary text. -/
def readValue (rest : List Char) : List Char :=
  let raw := trimStart rest
  match raw with
  | '"' :: body => (unescape? body).getD (bareValue raw)
  | '\'' :: body => (untilQuote? '\'' body).getD (bareValue raw)
  | '`' :: body => (untilQuote? '`' body).getD (bareValue raw)
  | _ => bareValue raw

/-! ### Reading a line -/

/-- Read `KEY =` and what follows it. The value must stay on the line. -/
def readKeyed? (cs : List Char) : Option (List Char × List Char) :=
  let key := cs.takeWhile isKeyChar
  match key, trimStart (cs.dropWhile isKeyChar) with
  | [], _ => none
  | _ :: _, '=' :: rest => if '\n' ∈ rest then none else some (key, rest)
  | _ :: _, _ => none

/-- What follows the word `export` and at least one blank. -/
def afterExport? (cs : List Char) : Option (List Char) :=
  match dropPrefix? "export".toList cs with
  | some (c :: rest) => if isBlank c then some (trimStart rest) else none
  | _ => none

/-- The key of a line and the text after its `=`. A line that does not read as an assignment
behind `export` is tried once more with `export` as its key. -/
def split? (line : List Char) : Option (List Char × List Char) :=
  let body := trimStart line
  ((afterExport? body).bind readKeyed?).or (readKeyed? body)

/-- Read one line; a line that is no assignment gives nothing. -/
def parse? (line : String) : Option Assignment :=
  (split? line.toList).map fun (key, rest) =>
    { key := String.ofList key, value := String.ofList (readValue rest) }

/-- The configuration that a list of lines assigns. -/
def parseAll (lines : List String) : Settings :=
  OrderedMap.ofList ((lines.filterMap parse?).map fun a => (a.key, a.value))

/-! ### Writing a line -/

/-- The written form of one character between double quotes. -/
def escapeChar : Char → List Char
  | '\\' => ['\\', '\\']
  | '"' => ['\\', '"']
  | '\n' => ['\\', 'n']
  | '\r' => ['\\', 'r']
  | '\t' => ['\\', 't']
  | c => [c]

/-- The line without quotes. -/
def plainLine (key value : String) : String := key ++ "=" ++ value

/-- The line with the value in double quotes. -/
def quotedLine (key value : String) : String :=
  key ++ "=\"" ++ String.ofList (value.toList.flatMap escapeChar) ++ "\""

/-- Write a line that reads back as the key and the value: without quotes whenever that loses
nothing, in double quotes otherwise. -/
def render (key value : String) : String :=
  if parse? (plainLine key value) = some ⟨key, value⟩ then plainLine key value
  else quotedLine key value

end Assignment

/-! ### Comment openers -/

/-- Drop every `//` at the front. -/
def dropOpeners : List Char → List Char
  | '/' :: '/' :: cs => dropOpeners cs
  | cs => cs

/-- The content of a body line: blanks and comment openers at the front are dropped, and after
an opener one blank more. A line without opener has no blank left to drop there. -/
def uncomment (line : String) : String :=
  match dropOpeners (trimStart line.toList) with
  | ' ' :: cs => String.ofList cs
  | cs => String.ofList cs

end AnnotatedEnv
