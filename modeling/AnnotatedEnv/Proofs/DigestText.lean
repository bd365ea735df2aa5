/-
Module: AnnotatedEnv.Proofs.DigestText
Purpose: What every text reads as where a digest is expected.
Main exports: Hex.IsHex, Hex.IsHexByte, Hex.forall_isHexByte_utf8_iff, Hex.exists_spells,
  Hex.decodeFrom_of_badByte, Digest.TextReads, Digest.ofText_eq_iff, Digest.digest_text_exact
A text is refused for its bytes: their number comes first, then the first of them that is no digit.
The number of digest bytes is looked at last.
-/
import Mathlib.Data.List.Basic
import AnnotatedEnv.Proofs.Spelling

namespace AnnotatedEnv

open Text

namespace Hex

/-! ### Hexadecimal digits -/

/-- The hexadecimal digits, those above nine in both cases. -/
def digits : List Char :=
  ['0', '1', '2', '3', '4', '5', '6', '7', '8', '9', 'a', 'b', 'c', 'd', 'e', 'f',
   'A', 'B', 'C', 'D', 'E', 'F']

def IsHex (c : Char) : Prop := c ∈ digits

instance (c : Char) : Decidable (IsHex c) := inferInstanceAs (Decidable (c ∈ digits))

def IsHexByte (b : UInt8) : Prop := b ∈ digits.map fun c => UInt8.ofNat c.toNat

instance (b : UInt8) : Decidable (IsHexByte b) :=
  inferInstanceAs (Decidable (b ∈ digits.map fun c => UInt8.ofNat c.toNat))

/-- The bytes that stand for a digit are those that are read as one. -/
theorem isHexByte_iff (b : UInt8) : IsHexByte b ↔ ∃ v, value? b = some v := by
  have hall : ∀ k < 256,
      IsHexByte (UInt8.ofNat k) ↔ (value? (UInt8.ofNat k)).isSome = true := by decide +kernel
  have hb := hall b.toNat b.toNat_lt
  rwa [UInt8.ofNat_toNat, Option.isSome_iff_exists] at hb

theorem isHex_iff (c : Char) : IsHex c ↔ ∃ n, IsDigit c n := by
  constructor
  · intro hc
    have hall : (digits.all fun c => c.toNat < 128) = true := by decide
    have hascii : c.toNat < 128 := of_decide_eq_true (List.all_eq_true.1 hall c hc)
    obtain ⟨v, hv⟩ := (isHexByte_iff _).1 (List.mem_map_of_mem hc)
    exact ⟨v.toNat, (value?_eq_some_iff hascii v).1 hv⟩
  · rintro ⟨n, hn⟩
    have hbytes : ∀ k < 128, (value? (UInt8.ofNat k)).isSome = true → Char.ofNat k ∈ digits := by
      decide +kernel
    have hbyte : value? (UInt8.ofNat c.toNat) = some (UInt8.ofNat n) := by
      rw [value?_eq_some_iff hn.lt, UInt8.toNat_ofNat', Nat.mod_eq_of_lt (by have := hn.1; omega)]
      exact hn
    have hmem := hbytes c.toNat hn.lt (Option.isSome_of_eq_some hbyte)
    rwa [Char.ofNat_toNat] at hmem

theorem value?_of_not_isHexByte {b : UInt8} (h : ¬ IsHexByte b) : value? b = none :=
  Option.eq_none_iff_forall_ne_some.2 fun v hv => h ((isHexByte_iff b).2 ⟨v, hv⟩)

/-- A character is a digit if all its bytes are, and then it has one byte. -/
theorem forall_isHexByte_utf8_iff (cs : List Char) :
    (∀ b ∈ cs.flatMap String.utf8EncodeChar, IsHexByte b) ↔ ∀ c ∈ cs, IsHex c := by
  simp only [List.forall_mem_flatMap]
  refine forall₂_congr fun c _ => ⟨fun hbytes => ?_, fun hc b hb => ?_⟩
  · by_contra hc
    rw [isHex_iff] at hc
    obtain ⟨b, bytes, hencoded, hnone⟩ := exists_head_of_not_isDigit (not_exists.1 hc)
    obtain ⟨v, hv⟩ := (isHexByte_iff b).1 (hbytes b (hencoded ▸ List.mem_cons_self))
    exact absurd (hnone.symm.trans hv) (by simp)
  · obtain ⟨n, hn⟩ := (isHex_iff c).1 hc
    rw [utf8EncodeChar_of_lt hn.lt, List.mem_singleton] at hb
    exact hb ▸ List.mem_map_of_mem hc

/-- Hexadecimal digits take one byte each. -/
theorem length_utf8_of_isHex {cs : List Char} (h : ∀ c ∈ cs, IsHex c) :
    (cs.flatMap String.utf8EncodeChar).length = cs.length := by
  induction cs with
  | nil => rfl
  | cons c cs ih =>
      obtain ⟨hc, hcs⟩ := List.forall_mem_cons.1 h
      obtain ⟨n, hn⟩ := (isHex_iff c).1 hc
      rw [List.flatMap_cons, utf8EncodeChar_of_lt hn.lt, List.singleton_append, List.length_cons,
        List.length_cons, ih hcs]

/-! ### Texts of digits -/

/-- Any two digits are the upper and the lower half of a byte. -/
theorem exists_byte {n m : Nat} (hn : n < 16) (hm : m < 16) :
    ∃ b : UInt8, b.toNat / 16 = n ∧ b.toNat % 16 = m := by
  refine ⟨UInt8.ofNat (n * 16 + m), ?_⟩
  rw [UInt8.toNat_ofNat', Nat.mod_eq_of_lt (by omega)]
  omega

/-- Digits spell bytes if their number is even. -/
theorem exists_spells : ∀ {cs : List Char}, (∀ c ∈ cs, IsHex c) → cs.length % 2 = 0 →
    ∃ bytes, Spells cs bytes
  | [], _, _ => ⟨[], .nil⟩
  | [_], _, heven => absurd heven (by simp)
  | high :: low :: cs, hcs, heven => by
      obtain ⟨hhigh, hlow, hrest⟩ : IsHex high ∧ IsHex low ∧ ∀ c ∈ cs, IsHex c := by
        simpa using hcs
      obtain ⟨_, hh⟩ := (isHex_iff high).1 hhigh
      obtain ⟨_, hl⟩ := (isHex_iff low).1 hlow
      obtain ⟨b, rfl, rfl⟩ := exists_byte hh.1 hl.1
      have hbehind : cs.length % 2 = 0 := by
        simp only [List.length_cons] at heven
        omega
      obtain ⟨bytes, hspells⟩ := exists_spells hrest hbehind
      exact ⟨b :: bytes, .byte hh hl hspells⟩

theorem Spells.length {cs : List Char} {bytes : List UInt8} (h : Spells cs bytes) :
    cs.length = 2 * bytes.length := by
  induction h with
  | nil => rfl
  | byte isHigh isLow rest ih =>
      simp only [List.length_cons]
      omega

/-- The digits that are written for some bytes are those that spelled them, in lower case. -/
theorem Spells.toList_encode {cs : List Char} {bytes : List UInt8} (h : Spells cs bytes) :
    (encode bytes).toList = cs.map Char.toLower := by
  rw [encode, String.toList_ofList]
  induction h with
  | nil => rfl
  | byte isHigh isLow rest ih =>
      rw [List.flatMap_cons, ih, encodeByte, List.map_cons, List.map_cons, isHigh.2, isLow.2]
      rfl

/-! ### Bytes that are no digits -/

/-- The first byte that is no digit is reported at its place. The digits in front of it are read two
at a time, so it may be the first or the second of two. -/
theorem decodeFrom_of_badByte {b : UInt8} (hb : ¬ IsHexByte b) :
    ∀ {front back : List UInt8} (i : Nat), (∀ d ∈ front, IsHexByte d) →
      (front ++ b :: back).length % 2 = 0 →
        decodeFrom i (front ++ b :: back) = .error (.badByte b (i + front.length))
  | [], [], i, _, heven => absurd heven (by simp)
  | [], l :: rest, i, _, _ => by simp [decodeFrom, value?_of_not_isHexByte hb]
  | [h], back, i, hfront, _ => by
      obtain ⟨v, hv⟩ := (isHexByte_iff h).1 (hfront h (List.mem_singleton_self h))
      simp [decodeFrom, value?_of_not_isHexByte hb, hv]
  | h :: l :: front, back, i, hfront, heven => by
      obtain ⟨hh, hl, hrest⟩ : IsHexByte h ∧ IsHexByte l ∧ ∀ d ∈ front, IsHexByte d := by
        simpa using hfront
      obtain ⟨hv, hhv⟩ := (isHexByte_iff h).1 hh
      obtain ⟨lv, hlv⟩ := (isHexByte_iff l).1 hl
      have hbehind : (front ++ b :: back).length % 2 = 0 := by
        simp only [List.cons_append, List.length_cons] at heven
        omega
      simp only [List.cons_append, decodeFrom, hhv, hlv,
        decodeFrom_of_badByte hb (i + 2) hrest hbehind, List.length_cons]
      congr 2
      omega

/-- Bytes are all digits, or there is a first one that is none. -/
theorem forall_or_exists_badByte (bytes : List UInt8) :
    (∀ b ∈ bytes, IsHexByte b) ∨
      ∃ front b back, bytes = front ++ b :: back ∧ (∀ d ∈ front, IsHexByte d) ∧ ¬ IsHexByte b := by
  cases hfind : bytes.find? fun b => ¬ IsHexByte b with
  | none =>
      left
      simpa using hfind
  | some b =>
      obtain ⟨hb, front, back, hbytes, hfront⟩ := List.find?_eq_some_iff_append.1 hfind
      exact .inr ⟨front, b, back, hbytes, by simpa using hfront, by simpa using hb⟩

end Hex

namespace Digest

/-! ### What a text reads as -/

/-- What a text reads as. The cases exclude each other, and one of them holds of every text. -/
inductive TextReads (text : String) : Except DigestError Digest → Prop where
  /-- Sixty-four digits are the digest that is written with them in lower case. -/
  | digest {d : Digest} (digits : ∀ c ∈ text.toList, Hex.IsHex c)
      (count : text.toList.length = 64) (lower : d.render.toList = text.toList.map Char.toLower) :
      TextReads text (.ok d)
  | oddLength (odd : (utf8 text).length % 2 = 1) : TextReads text (.error (.notHex .oddLength))
  /-- The first byte that is no digit, at its place among the bytes. -/
  | badByte {front back : List UInt8} {b : UInt8} (even : (utf8 text).length % 2 = 0)
      (bytes : utf8 text = front ++ b :: back) (digits : ∀ d ∈ front, Hex.IsHexByte d)
      (bad : ¬ Hex.IsHexByte b) : TextReads text (.error (.notHex (.badByte b front.length)))
  | wrongSize {size : Nat} (digits : ∀ c ∈ text.toList, Hex.IsHex c)
      (even : text.toList.length = 2 * size) (wrong : size ≠ 32) :
      TextReads text (.error (.wrongSize size))

/-- Digests that are written the same are the same. -/
theorem render_inj {d e : Digest} (h : d.render = e.render) : d = e := by
  have hread := ofText_render d
  rw [h, ofText_render] at hread
  exact (Except.ok.inj hread).symm

/-- Sixty-four digits read as a digest that is written with them in lower case. -/
theorem exists_ofText_of_digits {text : String} (hdigits : ∀ c ∈ text.toList, Hex.IsHex c)
    (hcount : text.toList.length = 64) :
    ∃ d, ofText text = .ok d ∧ d.render.toList = text.toList.map Char.toLower := by
  obtain ⟨bytes, hspells⟩ := Hex.exists_spells hdigits (by omega)
  have hsize : bytes.length = 32 := by
    have hlength := hspells.length
    omega
  exact ⟨⟨bytes, hsize⟩, (ofText_eq_ok_iff text _).2 hspells, hspells.toList_encode⟩

/-- Each way of reading a text is the way it is read. -/
theorem ofText_of_textReads {text : String} {result : Except DigestError Digest}
    (h : TextReads text result) : ofText text = result := by
  cases h with
  | @digest d digits count lower =>
      obtain ⟨e, hread, hlower⟩ := exists_ofText_of_digits digits count
      have hrender : d.render = e.render := String.toList_inj.1 (lower.trans hlower.symm)
      rw [hread, render_inj hrender]
  | oddLength odd => simp only [ofText, Hex.decode, if_pos odd]
  | badByte even bytes digits bad =>
      have hread := Hex.decodeFrom_of_badByte bad 0 digits (bytes ▸ even)
      have hnotOdd : ¬ (utf8 text).length % 2 = 1 := by omega
      simp only [ofText, Hex.decode, if_neg hnotOdd]
      rw [bytes, hread, Nat.zero_add]
  | @wrongSize size digits even wrong =>
      obtain ⟨bytes, hspells⟩ := Hex.exists_spells digits (by omega)
      have hdecode : Hex.decode text = .ok bytes := (Hex.decode_eq_ok_iff text bytes).2 hspells
      obtain rfl : bytes.length = size := by
        have hlength := hspells.length
        omega
      simp only [ofText, hdecode, ofExactly, dif_neg wrong]

/-- Each text is read in one of the ways. -/
theorem exists_textReads (text : String) : ∃ result, TextReads text result := by
  rcases Nat.mod_two_eq_zero_or_one (utf8 text).length with heven | hodd
  · rcases Hex.forall_or_exists_badByte (utf8 text) with hall | ⟨front, b, back, hsplit, hfront, hb⟩
    · have hdigits : ∀ c ∈ text.toList, Hex.IsHex c :=
        (Hex.forall_isHexByte_utf8_iff _).1 (utf8_eq text ▸ hall)
      rw [utf8_eq, Hex.length_utf8_of_isHex hdigits] at heven
      obtain ⟨size, hsize⟩ := Nat.dvd_of_mod_eq_zero heven
      by_cases hcount : size = 32
      · obtain ⟨d, _, hlower⟩ := exists_ofText_of_digits hdigits (by omega)
        exact ⟨.ok d, .digest hdigits (by omega) hlower⟩
      · exact ⟨_, .wrongSize hdigits hsize hcount⟩
    · exact ⟨_, .badByte heven hsplit hfront hb⟩
  · exact ⟨_, .oddLength hodd⟩

/-- What comes of a text is told by the relation, and by nothing else. -/
theorem ofText_eq_iff (text : String) (result : Except DigestError Digest) :
    ofText text = result ↔ TextReads text result := by
  refine ⟨?_, ofText_of_textReads⟩
  rintro rfl
  obtain ⟨result, h⟩ := exists_textReads text
  rwa [ofText_of_textReads h]

/-- A text is a digest exactly if it has sixty-four characters and all of them are hexadecimal
digits. -/
theorem exists_ofText_eq_ok_iff (text : String) :
    (∃ d, ofText text = .ok d) ↔ text.toList.length = 64 ∧ ∀ c ∈ text.toList, Hex.IsHex c := by
  constructor
  · rintro ⟨d, hread⟩
    cases (ofText_eq_iff text _).1 hread with
    | digest digits count lower => exact ⟨count, digits⟩
  · rintro ⟨hcount, hdigits⟩
    obtain ⟨d, hread, _⟩ := exists_ofText_of_digits hdigits hcount
    exact ⟨d, hread⟩

/-! ### The short form -/

theorem take_encodeByte (n : Nat) (bytes : List UInt8) :
    (bytes.flatMap Hex.encodeByte).take (2 * n) = (bytes.take n).flatMap Hex.encodeByte := by
  induction bytes generalizing n with
  | nil => simp
  | cons b bytes ih =>
      cases n with
      | zero => rfl
      | succ n =>
          rw [List.take_succ_cons, List.flatMap_cons, List.flatMap_cons, ← ih]
          rfl

/-- The short form is the front of the long one. -/
theorem toList_short (d : Digest) : d.short.toList = d.render.toList.take 16 := by
  rw [short, render, Hex.encode, Hex.encode, String.toList_ofList, String.toList_ofList,
    take_encodeByte 8]

/-! ### Exactness -/

/-- A digest is read back from its digits, of which the short form is the first sixteen. Sixty-four
digits and nothing else read as a digest, and every text reads as one of the cases says. -/
theorem digest_text_exact :
    (∀ d : Digest, ofText d.render = .ok d ∧ d.short.toList = d.render.toList.take 16) ∧
      (∀ text : String, (∃ d, ofText text = .ok d) ↔
        text.toList.length = 64 ∧ ∀ c ∈ text.toList, Hex.IsHex c) ∧
      ∀ (text : String) (result : Except DigestError Digest),
        ofText text = result ↔ TextReads text result :=
  ⟨fun d => ⟨ofText_render d, toList_short d⟩, exists_ofText_eq_ok_iff, ofText_eq_iff⟩

/-- A letter of two bytes behind a digit makes three bytes. With one more byte behind it the first
of the letter is reported, at the second place. -/
example :
    ofText "0é" = .error (.notHex .oddLength) ∧
      ofText "0éz" = .error (.notHex (.badByte 0xC3 1)) ∧
      ofText "0Aff" = .error (.wrongSize 2) := by
  decide +kernel

end Digest

end AnnotatedEnv
