/-
Module: AnnotatedEnv.Proofs.Hex
Purpose: The digits of some bytes are read as these bytes.
Main exports: Text.utf8_ofList, Text.utf8_eq, Hex.decode_encode, Digest.ofText_render
-/
import AnnotatedEnv.Digest

namespace AnnotatedEnv

/-- The bytes of a text are those of its characters, one after another. -/
theorem Text.utf8_ofList (cs : List Char) :
    utf8 (String.ofList cs) = cs.flatMap String.utf8EncodeChar := by
  simp [utf8, String.toUTF8, String.toByteArray_ofList, List.utf8Encode]

theorem Text.utf8_eq (s : String) : utf8 s = s.toList.flatMap String.utf8EncodeChar := by
  rw [← utf8_ofList, String.ofList_toList]

namespace Hex

/-! ### Digits -/

/-- The byte of a digit, which is all of its UTF-8 form. -/
def digitByte (n : Nat) : UInt8 := UInt8.ofNat (digit n).toNat

theorem utf8EncodeChar_digit {n : Nat} (h : n < 16) :
    String.utf8EncodeChar (digit n) = [digitByte n] := by
  revert n
  decide

theorem value?_digitByte {n : Nat} (h : n < 16) : value? (digitByte n) = some (UInt8.ofNat n) := by
  revert n
  decide

/-! ### Bytes -/

theorem high_lt (b : UInt8) : b.toNat / 16 < 16 := by
  have hlt : b.toNat < 256 := b.toNat_lt
  omega

theorem low_lt (b : UInt8) : b.toNat % 16 < 16 := Nat.mod_lt _ (by decide)

/-- A byte is its high half times sixteen plus its low half. -/
theorem halves (b : UInt8) : UInt8.ofNat (b.toNat / 16) * 16 + UInt8.ofNat (b.toNat % 16) = b := by
  have hlt : b.toNat < 256 := b.toNat_lt
  have hsixteen : (16 : UInt8).toNat = 16 := rfl
  rw [← UInt8.toNat_inj, UInt8.toNat_add, UInt8.toNat_mul, UInt8.toNat_ofNat', UInt8.toNat_ofNat',
    hsixteen]
  omega

/-- The bytes of the two digits of a byte. -/
def digitBytes (b : UInt8) : List UInt8 := [digitByte (b.toNat / 16), digitByte (b.toNat % 16)]

/-- Digits take one byte each, so bytes in hexadecimal are two bytes each. -/
theorem utf8_encode (bytes : List UInt8) : Text.utf8 (encode bytes) = bytes.flatMap digitBytes := by
  rw [encode, Text.utf8_ofList, List.flatMap_assoc]
  congr 1
  funext b
  simp [encodeByte, digitBytes, utf8EncodeChar_digit (high_lt b), utf8EncodeChar_digit (low_lt b)]

theorem length_flatMap_digitBytes (bytes : List UInt8) :
    (bytes.flatMap digitBytes).length = 2 * bytes.length := by
  induction bytes with
  | nil => rfl
  | cons b bytes ih =>
      rw [List.flatMap_cons, List.length_append, ih, digitBytes]
      simp only [List.length_cons, List.length_nil]
      omega

/-- Decoding goes through the digits of any bytes without an error. -/
theorem decodeFrom_digitBytes (i : Nat) (bytes : List UInt8) :
    decodeFrom i (bytes.flatMap digitBytes) = .ok bytes := by
  induction bytes generalizing i with
  | nil => rfl
  | cons b bytes ih =>
      simp only [List.flatMap_cons, digitBytes, List.cons_append, List.nil_append, decodeFrom,
        value?_digitByte (high_lt b), value?_digitByte (low_lt b), ih, halves]

/-- Bytes are decoded from their digits. -/
theorem decode_encode (bytes : List UInt8) : decode (encode bytes) = .ok bytes := by
  have heven : (bytes.flatMap digitBytes).length % 2 ≠ 1 := by
    rw [length_flatMap_digitBytes]
    omega
  simp only [decode, utf8_encode, if_neg heven, decodeFrom_digitBytes]

end Hex

/-- A digest is read back from its text. -/
theorem Digest.ofText_render (d : Digest) : ofText d.render = .ok d := by
  simp only [ofText, render, Hex.decode_encode, ofExactly, dif_pos d.size_eq]

end AnnotatedEnv
