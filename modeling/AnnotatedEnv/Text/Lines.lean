/-
Module: AnnotatedEnv.Text.Lines
Purpose: Cutting a text at its line feeds and joining lines again.
Main exports: splitLines, splitEndedLines, joinLines, dropReturn
-/
import AnnotatedEnv.Text.Blank

namespace AnnotatedEnv.Text

/-- Drop one carriage return at the end. -/
def dropReturn (cs : List Char) : List Char :=
  if cs.getLast? = some '\r' then cs.dropLast else cs

/-- The lines of a text. A final line feed ends the last line and opens no further one, and a
carriage return in front of a line feed belongs to the line end. -/
def splitLines (cs : List Char) : List (List Char) :=
  if cs.isEmpty then []
  else
    let body := if cs.getLast? = some '\n' then cs.dropLast else cs
    (pieces (· = '\n') body).map dropReturn

/-- The lines of a text, where a carriage return belongs to the line end only in front of a line
feed: the last line keeps one if no line feed follows it. -/
def splitEndedLines (cs : List Char) : List (List Char) :=
  let ps := pieces (· = '\n') cs
  ps.dropLast.map dropReturn ++ (ps.getLast?.toList.filter (!·.isEmpty))

/-- Lines with `terminator` between neighbours. -/
def joinLines (terminator : String) (lines : List String) : String :=
  terminator.intercalate lines

end AnnotatedEnv.Text
