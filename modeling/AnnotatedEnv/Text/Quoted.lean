/-
Module: AnnotatedEnv.Text.Quoted
Purpose: Texts and characters as log lines and error texts quote them.
Main exports: quoteText, quoteChar
-/
import AnnotatedEnv.Text.PrintRanges
import AnnotatedEnv.Text.Word

namespace AnnotatedEnv.Text

/-- The character with its code point in braces, in hexadecimal without leading zeros. -/
def codePointEscape (c : Char) : List Char :=
  ['\\', 'u', '\x7b'] ++ Nat.toDigits 16 c.toNat ++ ['\x7d']

/-- The quoted form of a character; `quote` is the quote around the text. Controls with a letter
of their own use it, and what cannot be seen, or would merge with its neighbour, is written as a
code point. -/
def quotedChar (quote : Char) (c : Char) : List Char :=
  if c = '\x00' then ['\\', '0']
  else if c = '\t' then ['\\', 't']
  else if c = '\r' then ['\\', 'r']
  else if c = '\n' then ['\\', 'n']
  else if c = '\\' ∨ c = quote then ['\\', c]
  else if inRanges attachingRanges c.toNat then codePointEscape c
  else if inRanges unprintableRanges c.toNat then codePointEscape c
  else [c]

def quoteText (s : String) : String :=
  "\"" ++ String.ofList (s.toList.flatMap (quotedChar '"')) ++ "\""

def quoteChar (c : Char) : String :=
  "'" ++ String.ofList (quotedChar '\'' c) ++ "'"

end AnnotatedEnv.Text
