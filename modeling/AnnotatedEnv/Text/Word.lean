/-
Module: AnnotatedEnv.Text.Word
Purpose: The character classes that names and keys are made of.
Main exports: isWord, isNameChar, isKeyChar
-/
import AnnotatedEnv.Text.WordRanges

namespace AnnotatedEnv.Text

/-- Whether some closed range of a table holds the code point. -/
def inRanges (ranges : List (Nat × Nat)) (code : Nat) : Bool :=
  ranges.any fun r => r.1 ≤ code && code ≤ r.2

/-- A word character: a letter, a mark, a decimal digit, a connector or a joiner of any
script. -/
def isWord (c : Char) : Bool :=
  inRanges wordRanges c.toNat

/-- Characters that continue the name of a tag. -/
def isNameChar (c : Char) : Bool :=
  isWord c || c = '-'

/-- Characters that a configuration key is made of. -/
def isKeyChar (c : Char) : Bool :=
  isWord c || c = '.' || c = '-'

end AnnotatedEnv.Text
