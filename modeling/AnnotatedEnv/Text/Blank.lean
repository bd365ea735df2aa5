/-
Module: AnnotatedEnv.Text.Blank
Purpose: Blank characters, trimming, and cutting a text into pieces.
Main exports: isBlank, trimStart, trim, pieces, words, dropPrefix?
Scanners work on `List Char` and return what they leave of it.
-/

namespace AnnotatedEnv.Text

/-! ### Blanks -/

/-- The characters with the White_Space property: twenty-five code points. -/
def blankCodes : List Nat :=
  [0x09, 0x0A, 0x0B, 0x0C, 0x0D, 0x20, 0x85, 0xA0, 0x1680,
   0x2000, 0x2001, 0x2002, 0x2003, 0x2004, 0x2005, 0x2006, 0x2007, 0x2008, 0x2009, 0x200A,
   0x2028, 0x2029, 0x202F, 0x205F, 0x3000]

/-- A blank is any character with the White_Space property, not only the ASCII ones. -/
def isBlank (c : Char) : Bool :=
  blankCodes.contains c.toNat

def trimStart (cs : List Char) : List Char :=
  cs.dropWhile isBlank

def trimEnd (cs : List Char) : List Char :=
  (cs.reverse.dropWhile isBlank).reverse

def trim (cs : List Char) : List Char :=
  trimEnd (trimStart cs)

/-! ### Pieces -/

/-- Cut at every character that satisfies `p`. The cut characters are dropped, and there is
always one more piece than cuts. -/
def pieces (p : Char → Bool) : List Char → List (List Char)
  | [] => [[]]
  | c :: cs =>
    if p c then [] :: pieces p cs
    else
      match pieces p cs with
      | [] => [[c]]
      | w :: ws => (c :: w) :: ws

theorem pieces_ne_nil (p : Char → Bool) (cs : List Char) : pieces p cs ≠ [] := by
  cases cs with
  | nil => simp [pieces]
  | cons c cs =>
    rw [pieces]
    split
    · simp
    · split <;> simp

/-- The non-empty pieces between blanks. -/
def words (cs : List Char) : List (List Char) :=
  (pieces isBlank cs).filter (!·.isEmpty)

/-! ### Openings -/

/-- Drop an opening from the front of a text that starts with it. -/
def dropPrefix? : (opening cs : List Char) → Option (List Char)
  | [], cs => some cs
  | _ :: _, [] => none
  | p :: ps, c :: cs => if p = c then dropPrefix? ps cs else none

end AnnotatedEnv.Text
