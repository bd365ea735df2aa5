/-
Module: AnnotatedEnv.Toml.Scalar
Purpose: Numbers, truth values, dates and times of TOML.
Main exports: Toml.readScalar?
A scalar is the longest run of letters, digits, signs, dots, colons and underscores; the whole run
must be of one of the forms.
-/
import AnnotatedEnv.Toml.Basic
import AnnotatedEnv.Toml.Text

namespace AnnotatedEnv.Toml

/-! ### Numbers -/

def isScalarChar (c : Char) : Bool :=
  c.isAlphanum || c = '+' || c = '-' || c = '.' || c = '_' || c = ':'

/-- The digits of a number in which single underscores may stand between digits. -/
def digits? (isDigit : Char → Bool) : List Char → Option (List Char)
  | [] => none
  | [c] => if isDigit c then some [c] else none
  | c :: '_' :: d :: cs =>
    if isDigit c && isDigit d then (digits? isDigit (d :: cs)).map (c :: ·) else none
  | c :: cs => if isDigit c then (digits? isDigit cs).map (c :: ·) else none

def valueOf (base : Nat) (digits : List Char) : Nat :=
  digits.foldl
    (fun n c => n * base + (if c.isDigit then c.toNat - 48 else c.toLower.toNat - 87)) 0

/-- Split off a sign; `true` is minus. -/
def splitSign : List Char → Bool × List Char
  | '+' :: cs => (false, cs)
  | '-' :: cs => (true, cs)
  | cs => (false, cs)

/-- Decimal digits without a needless zero in front. -/
def decimalDigits? (cs : List Char) : Option (List Char) :=
  match digits? Char.isDigit cs with
  | some ('0' :: _ :: _) => none
  | ds => ds

/-- The number that a run of characters writes, of any size. -/
def integerValue? : List Char → Option Int
  | '0' :: 'x' :: cs =>
    (digits? (fun c => c.isDigit || ('a' ≤ c && c ≤ 'f') || ('A' ≤ c && c ≤ 'F')) cs).map
      fun ds => (valueOf 16 ds : Int)
  | '0' :: 'o' :: cs =>
    (digits? (fun c => '0' ≤ c && c ≤ '7') cs).map fun ds => (valueOf 8 ds : Int)
  | '0' :: 'b' :: cs =>
    (digits? (fun c => c = '0' || c = '1') cs).map fun ds => (valueOf 2 ds : Int)
  | cs =>
    let (minus, ds) := splitSign cs
    (decimalDigits? ds).map fun ds =>
      if minus then -(valueOf 10 ds : Int) else (valueOf 10 ds : Int)

/-- An integer has to fit into sixty-four bits with a sign. -/
def integer? (cs : List Char) : Option Int :=
  match integerValue? cs with
  | some n => if -9223372036854775808 ≤ n ∧ n ≤ 9223372036854775807 then some n else none
  | none => none

/-- Whether `digits · 10 ^ exponent` rounds to a finite double. -/
def isFinite (digits : List Char) (exponent : Int) : Bool :=
  let significant := digits.dropWhile (· = '0')
  let magnitude : Int := significant.length + exponent
  if significant.isEmpty || magnitude < 308 then true
  else if 310 < magnitude then false
  else
    let n := valueOf 10 significant
    let limit := Nat.pow 2 1024 - Nat.pow 2 970
    if 0 ≤ exponent then decide (n * Nat.pow 10 exponent.toNat < limit)
    else decide (n < limit * Nat.pow 10 exponent.natAbs)

def exponent? (cs : List Char) : Option Int :=
  let (minus, ds) := splitSign cs
  (digits? Char.isDigit ds).map fun ds =>
    if minus then -(valueOf 10 ds : Int) else (valueOf 10 ds : Int)

/-- Whether a run of characters is a number with a fraction or an exponent, or a special one. A
number that is too large for a double is refused; below the smallest one it counts as infinite. -/
def isFloat (cs : List Char) : Bool :=
  let (minus, body) := splitSign cs
  if body = "inf".toList || body = "nan".toList then true
  else
    let isMark (c : Char) : Bool := c = 'e' || c = 'E'
    let mantissa := body.takeWhile (!isMark ·)
    let power := body.dropWhile (!isMark ·)
    let whole := mantissa.takeWhile (· ≠ '.')
    let fraction := mantissa.dropWhile (· ≠ '.')
    let fractionDigits : Option (List Char) :=
      match fraction with
      | [] => some []
      | _ :: ds => digits? Char.isDigit ds
    let powerValue : Option Int :=
      match power with
      | [] => some 0
      | _ :: ds => exponent? ds
    match decimalDigits? whole, fractionDigits, powerValue with
    | some w, some f, some e =>
      !(fraction.isEmpty && power.isEmpty) && (minus || isFinite (w ++ f) (e - f.length))
    | _, _, _ => false

/-! ### Dates and times -/

/-- A number of exactly `n` digits at the front, within bounds. -/
def fixed? (n lo hi : Nat) (cs : List Char) : Option (Nat × List Char) :=
  let ds := cs.take n
  if ds.length = n ∧ ds.all Char.isDigit ∧ lo ≤ valueOf 10 ds ∧ valueOf 10 ds ≤ hi then
    some (valueOf 10 ds, cs.drop n)
  else none

def expect? (c : Char) : List Char → Option (List Char)
  | d :: cs => if d = c then some cs else none
  | [] => none

def daysIn (year month : Nat) : Nat :=
  if month = 2 then
    if (year % 4 = 0 ∧ year % 100 ≠ 0) ∨ year % 400 = 0 then 29 else 28
  else if month = 4 ∨ month = 6 ∨ month = 9 ∨ month = 11 then 30
  else 31

def skipDate? (cs : List Char) : Option (List Char) := do
  let (year, cs) ← fixed? 4 0 9999 cs
  let cs ← expect? '-' cs
  let (month, cs) ← fixed? 2 1 12 cs
  let cs ← expect? '-' cs
  let (_, cs) ← fixed? 2 1 (daysIn year month) cs
  pure cs

def skipTime? (cs : List Char) : Option (List Char) := do
  let (_, cs) ← fixed? 2 0 23 cs
  let cs ← expect? ':' cs
  let (_, cs) ← fixed? 2 0 59 cs
  let cs ← expect? ':' cs
  let (_, cs) ← fixed? 2 0 60 cs
  match cs with
  | '.' :: d :: cs => if d.isDigit then pure (cs.dropWhile Char.isDigit) else none
  | cs => pure cs

/-- Whether a text is the offset of a time zone, or nothing. -/
def isOffset : List Char → Bool
  | [] => true
  | ['Z'] => true
  | ['z'] => true
  | c :: cs =>
    if c = '+' || c = '-' then
      match (do
        let (_, cs) ← fixed? 2 0 23 cs
        let cs ← expect? ':' cs
        let (_, cs) ← fixed? 2 0 59 cs
        pure cs) with
      | some [] => true
      | _ => false
    else false

/-- Whether a text is a time, with an offset if `zoned`. -/
def isTime (zoned : Bool) (cs : List Char) : Bool :=
  match skipTime? cs with
  | some rest => if zoned then isOffset rest else rest.isEmpty
  | none => false

/-- Whether a text is a date, a time, or both around `T`. -/
def isDatetime (cs : List Char) : Bool :=
  match skipDate? cs with
  | some [] => true
  | some (c :: rest) => (c = 'T' || c = 't') && isTime true rest
  | none => isTime false cs

/-! ### Scalars -/

/-- The value of a run of characters. -/
def scalar? (cs : List Char) : Option Toml :=
  if cs = "true".toList then some (.boolean true)
  else if cs = "false".toList then some (.boolean false)
  else if isDatetime cs then some .datetime
  else if isFloat cs then some .float
  else (integer? cs).map .integer

/-- Read a scalar. A date may be followed by one blank and a time. -/
def readScalar? (cs : List Char) : Option (Toml × List Char) :=
  let run := cs.takeWhile isScalarChar
  let rest := cs.dropWhile isScalarChar
  match skipDate? run, rest with
  | some [], ' ' :: more =>
    let time := more.takeWhile isScalarChar
    if (time.take 3).getLast? = some ':' && (time.take 2).all Char.isDigit then
      if isTime true time then some (.datetime, more.dropWhile isScalarChar) else none
    else some (.datetime, rest)
  | _, _ => (scalar? run).map (·, rest)

end AnnotatedEnv.Toml
