/-
Module: AnnotatedEnv.Text.Hex
Purpose: Bytes as hexadecimal text.
Main exports: Hex.encode, Hex.decode, Hex.DecodeError
Writing uses lower case; reading takes both cases and looks at the bytes of the text, so a
character outside ASCII is reported by its first byte.
-/
import AnnotatedEnv.Text.Quoted
import AnnotatedEnv.Text.Utf8

namespace AnnotatedEnv.Hex

/-- The digit of a value below sixteen. -/
def digit (n : Nat) : Char :=
  if n < 10 then Char.ofNat (48 + n) else Char.ofNat (87 + n)

/-- The two digits of a byte, the higher first. -/
def encodeByte (b : UInt8) : List Char :=
  [digit (b.toNat / 16), digit (b.toNat % 16)]

def encode (bytes : List UInt8) : String :=
  String.ofList (bytes.flatMap encodeByte)

inductive DecodeError where
  | oddLength
  /-- The byte at this position is no hexadecimal digit. -/
  | badByte (byte : UInt8) (position : Nat)
  deriving DecidableEq, Repr

/-- The wording. A byte is shown as the character with its number. -/
def DecodeError.message : DecodeError → String
  | oddLength => "Odd number of digits"
  | badByte byte position =>
    "Invalid character " ++ Text.quoteChar (Char.ofNat byte.toNat) ++ " at position "
      ++ toString position

/-- The value of a digit in either case. -/
def value? (b : UInt8) : Option UInt8 :=
  if 48 ≤ b ∧ b ≤ 57 then some (b - 48)
  else if 97 ≤ b ∧ b ≤ 102 then some (b - 87)
  else if 65 ≤ b ∧ b ≤ 70 then some (b - 55)
  else none

/-- Read the digits from position `i` on, two for a byte. -/
def decodeFrom : (i : Nat) → List UInt8 → Except DecodeError (List UInt8)
  | _, [] => .ok []
  | _, [_] => .error .oddLength
  | i, h :: l :: rest =>
    match value? h, value? l with
    | none, _ => .error (.badByte h i)
    | some _, none => .error (.badByte l (i + 1))
    | some hv, some lv =>
      match decodeFrom (i + 2) rest with
      | .ok bytes => .ok ((hv * 16 + lv) :: bytes)
      | .error e => .error e

/-- Read a text as bytes; an odd length is reported before anything else. -/
def decode (text : String) : Except DecodeError (List UInt8) :=
  let bytes := Text.utf8 text
  if bytes.length % 2 = 1 then .error .oddLength else decodeFrom 0 bytes

end AnnotatedEnv.Hex
