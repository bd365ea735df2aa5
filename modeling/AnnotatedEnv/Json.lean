/-
Module: AnnotatedEnv.Json
Purpose: JSON values and their written forms.
Main exports: Json, Json.pretty, Json.compact, Json.member?
-/
import AnnotatedEnv.Text.Blank

namespace AnnotatedEnv

/-- A JSON value. Members of an object keep their order. -/
inductive Json where
  | null
  | bool (b : Bool)
  /-- A number written without a fraction. -/
  | number (n : Int)
  /-- A number with `scale` digits behind the point. -/
  | decimal (mantissa : Int) (scale : Nat)
  | string (s : String)
  | array (items : List Json)
  | object (members : List (String × Json))
  deriving Repr, BEq, Inhabited

namespace Json

def nat (n : Nat) : Json := .number n

def member? (name : String) : List (String × Json) → Option Json
  | [] => none
  | (k, v) :: ms => if k = name then some v else member? name ms

/-! ### Written forms -/

/-- The written form of one character of a string. Only quotes, backslashes and control
characters are escaped. -/
def escapeChar (c : Char) : List Char :=
  if c = '"' then ['\\', '"']
  else if c = '\\' then ['\\', '\\']
  else if c = '\n' then ['\\', 'n']
  else if c = '\r' then ['\\', 'r']
  else if c = '\t' then ['\\', 't']
  else if c.toNat = 8 then ['\\', 'b']
  else if c.toNat = 12 then ['\\', 'f']
  else if c.toNat < 32 then
    ['\\', 'u', '0', '0', Nat.digitChar (c.toNat / 16), Nat.digitChar (c.toNat % 16)]
  else [c]

def quote (s : String) : String :=
  "\"" ++ String.ofList (s.toList.flatMap escapeChar) ++ "\""

def decimalText (mantissa : Int) (scale : Nat) : String :=
  let digits := (toString mantissa.natAbs).toList
  let padded := List.replicate (scale + 1 - digits.length) '0' ++ digits
  let whole := padded.take (padded.length - scale)
  let fraction := padded.drop (padded.length - scale)
  (if mantissa < 0 then "-" else "") ++ String.ofList whole
    ++ (if fraction.isEmpty then "" else "." ++ String.ofList fraction)

/-- A line break and the indentation of a depth, two blanks for each level. -/
def lineBreak (depth : Nat) : String :=
  "\n" ++ String.ofList (List.replicate (2 * depth) ' ')

mutual

/-- The indented form of a value that stands at a depth. -/
def prettyAt (depth : Nat) : Json → String
  | null => "null"
  | bool b => if b then "true" else "false"
  | number n => toString n
  | decimal mantissa scale => decimalText mantissa scale
  | string s => quote s
  | array [] => "[]"
  | array (x :: xs) =>
    "[" ++ lineBreak (depth + 1) ++ prettyAt (depth + 1) x ++ prettyItems (depth + 1) xs
      ++ lineBreak depth ++ "]"
  | object [] => "\x7b\x7d"
  | object ((k, v) :: ms) =>
    "\x7b" ++ lineBreak (depth + 1) ++ quote k ++ ": " ++ prettyAt (depth + 1) v
      ++ prettyMembers (depth + 1) ms ++ lineBreak depth ++ "\x7d"

def prettyItems (depth : Nat) : List Json → String
  | [] => ""
  | x :: xs => "," ++ lineBreak depth ++ prettyAt depth x ++ prettyItems depth xs

def prettyMembers (depth : Nat) : List (String × Json) → String
  | [] => ""
  | (k, v) :: ms =>
    "," ++ lineBreak depth ++ quote k ++ ": " ++ prettyAt depth v ++ prettyMembers depth ms

end

mutual

def compact : Json → String
  | null => "null"
  | bool b => if b then "true" else "false"
  | number n => toString n
  | decimal mantissa scale => decimalText mantissa scale
  | string s => quote s
  | array [] => "[]"
  | array (x :: xs) => "[" ++ compact x ++ compactItems xs ++ "]"
  | object [] => "\x7b\x7d"
  | object ((k, v) :: ms) =>
    "\x7b" ++ quote k ++ ":" ++ compact v ++ compactMembers ms ++ "\x7d"

def compactItems : List Json → String
  | [] => ""
  | x :: xs => "," ++ compact x ++ compactItems xs

def compactMembers : List (String × Json) → String
  | [] => ""
  | (k, v) :: ms => "," ++ quote k ++ ":" ++ compact v ++ compactMembers ms

end

/-- The indented form: one item a line, and empty containers closed at once. -/
def pretty (v : Json) : String := prettyAt 0 v

end Json

end AnnotatedEnv
