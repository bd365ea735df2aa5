/-
Module: AnnotatedEnv.Document
Purpose: A text as numbered lines with a digest.
Main exports: LineEnding, LineEnding.native, Document, Document.ofLines, Document.ofText,
  Document.toText
Lines count from zero and never change in number; what ends them is kept apart, so that the same
lines have the same digest in every file.
-/
import AnnotatedEnv.Digest
import AnnotatedEnv.Text.Lines

namespace AnnotatedEnv

open Text

/-! ### Line ends -/

/-- What ends a line when a document is written. -/
inductive LineEnding where
  | lf
  | crlf
  deriving DecidableEq, Repr

namespace LineEnding

def terminator : LineEnding → String
  | lf => "\n"
  | crlf => "\r\n"

/-- The name in JSON forms. -/
def label : LineEnding → String
  | lf => "lf"
  | crlf => "crlf"

/-- The line end of the platform, for lines that do not show one: a line feed, as everywhere but on
Windows. -/
abbrev native : LineEnding := lf

/-- The line end of a text, told by its first line feed: a carriage return in front of it makes
the difference. `previous` is the character before. A text on one line has the line end of the
platform. -/
def ofTextAfter : (previous : Option Char) → List Char → LineEnding
  | _, [] => native
  | previous, c :: cs =>
    if c = '\n' then (if previous = some '\r' then crlf else lf) else ofTextAfter (some c) cs

end LineEnding

/-! ### Documents -/

/-- An immutable text as lines. -/
structure Document where
  lines : List String
  digest : Digest
  lineEnding : LineEnding
  /-- Whether the last line is ended too. -/
  trailingNewline : Bool
  /-- The digest is always that of the lines. -/
  digest_eq : digest = Digest.ofLines lines
  deriving DecidableEq, Repr

namespace Document

/-- A document of these lines with this way of ending them. -/
def mk' (lines : List String) (lineEnding : LineEnding) (trailingNewline : Bool) : Document :=
  ⟨lines, Digest.ofLines lines, lineEnding, trailingNewline, rfl⟩

/-- A document of lines that come without a text: ended as on the platform, the last one too. -/
def ofLines (lines : List String) : Document := mk' lines .native true

/-- Read a text. A final line feed opens no further line, and an empty text has no line. -/
def ofText (text : String) : Document :=
  mk' ((splitLines text.toList).map String.ofList) (.ofTextAfter none text.toList)
    (text.toList.getLast? = some '\n')

instance : Inhabited Document := ⟨ofLines []⟩

def size (d : Document) : Nat := d.lines.length

def line? (d : Document) (i : Nat) : Option String := d.lines[i]?

/-- Write the lines with the line end they were read with. -/
def toText (d : Document) : String :=
  let text := joinLines d.lineEnding.terminator d.lines
  if d.trailingNewline && !d.lines.isEmpty then text ++ d.lineEnding.terminator else text

/-- The document with other lines and the same way of ending them. -/
def withLines (d : Document) (lines : List String) : Document :=
  mk' lines d.lineEnding d.trailingNewline

end Document

end AnnotatedEnv
