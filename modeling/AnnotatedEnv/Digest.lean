/-
Module: AnnotatedEnv.Digest
Purpose: The digest that names the content of a document.
Main exports: Digest, Digest.ofBytes, Digest.ofLines, Digest.lineStream, Digest.render,
  Digest.ofText, DigestError
Two documents with the same lines have the same digest, whatever ends their lines.
-/
import AnnotatedEnv.Digest.Blake3
import AnnotatedEnv.Text.Hex

namespace AnnotatedEnv

structure Digest where
  bytes : List UInt8
  size_eq : bytes.length = 32
  deriving DecidableEq, Repr

inductive DigestError where
  /-- The number of bytes is not thirty-two. -/
  | wrongSize (size : Nat)
  | notHex (error : Hex.DecodeError)
  deriving DecidableEq, Repr

def DigestError.message : DigestError → String
  | wrongSize size => "invalid hash length: expected 32, got " ++ toString size
  | notHex error => "hex decode error: " ++ error.message

namespace Digest

instance : Inhabited Digest := ⟨⟨List.replicate 32 0, List.length_replicate⟩⟩

/-- Take thirty-two bytes as a digest. -/
def ofExactly (bytes : List UInt8) : Except DigestError Digest :=
  if h : bytes.length = 32 then .ok ⟨bytes, h⟩ else .error (.wrongSize bytes.length)

def ofBytes (message : List UInt8) : Digest :=
  ⟨Blake3.hash message, Blake3.length_hash message⟩

/-- The `k` lowest bytes of a number, the lowest first. -/
def littleEndian : (k : Nat) → Nat → List UInt8
  | 0, _ => []
  | k + 1, n => UInt8.ofNat n :: littleEndian k (n / 256)

/-- One line of the hashed stream: its length in bytes, then its bytes. -/
def lineBytes (line : String) : List UInt8 :=
  let bytes := Text.utf8 line
  littleEndian 8 bytes.length ++ bytes

/-- The bytes that stand for a list of lines: the number of lines, then every line behind its
length. The lengths keep apart what a separator would confuse. -/
def lineStream (lines : List String) : List UInt8 :=
  littleEndian 8 lines.length ++ lines.flatMap lineBytes

def ofLines (lines : List String) : Digest :=
  ofBytes (lineStream lines)

def render (d : Digest) : String := Hex.encode d.bytes

def short (d : Digest) : String := Hex.encode (d.bytes.take 8)

/-- Read a digest from its digits, in either case. -/
def ofText (text : String) : Except DigestError Digest :=
  match Hex.decode text with
  | .ok bytes => ofExactly bytes
  | .error e => .error (.notHex e)

end Digest

end AnnotatedEnv
