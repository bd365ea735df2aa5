/-
Module: AnnotatedEnv.Proofs.Spelling
Purpose: The texts that bytes and digests are read from.
Main exports: Hex.IsDigit, Hex.Spells, Hex.decode_eq_ok_iff, Digest.ofText_eq_ok_iff
Reading looks at the bytes of a text. A digit is one byte, and what begins any other character is
the value of no digit.
-/
import AnnotatedEnv.Proofs.Hex

namespace AnnotatedEnv

namespace Hex

/-! ### Digits -/

/-- A digit of a value below sixteen, in either case. -/
def IsDigit (c : Char) (n : Nat) : Prop := n < 16 ∧ c.toLower = digit n

/-- Some characters spell bytes, two digits for each byte and the higher digit first. -/
inductive Spells : List Char → List UInt8 → Prop where
  | nil : Spells [] []
  | byte {high low : Char} {b : UInt8} {cs : List Char} {bytes : List UInt8}
      (isHigh : IsDigit high (b.toNat / 16)) (isLow : IsDigit low (b.toNat % 16))
      (rest : Spells cs bytes) : Spells (high :: low :: cs) (b :: bytes)

/-- Only ASCII letters have another case here, so every digit is one byte. -/
theorem IsDigit.lt {c : Char} {n : Nat} (h : IsDigit c n) : c.toNat < 128 := by
  have hdigit : ∀ n < 16, (digit n).toNat < 128 := by decide
  refine Nat.lt_of_not_le fun hge => ?_
  have hsame : c.toLower = c := by
    refine dif_neg fun hletter => ?_
    have hval : c.toNat ≤ 90 := UInt32.le_iff_toNat_le.1 hletter.2
    omega
  have hlt := hdigit n h.1
  rw [← h.2, hsame] at hlt
  omega

theorem utf8EncodeChar_of_lt {c : Char} (h : c.toNat < 128) :
    String.utf8EncodeChar c = [UInt8.ofNat c.toNat] := by
  have hle : c.val.toNat ≤ 127 := Nat.le_of_lt_succ h
  simp only [String.utf8EncodeChar.eq_def, if_pos hle]
  rfl

theorem value?_lt {b v : UInt8} (h : value? b = some v) : v.toNat < 16 := by
  have hall : ∀ k < 256, (value? (UInt8.ofNat k)).all (·.toNat < 16) = true := by decide +kernel
  have hb := hall b.toNat b.toNat_lt
  rw [UInt8.ofNat_toNat, h] at hb
  exact of_decide_eq_true hb

/-- Among the ASCII characters, those with a value are the digits. -/
theorem value?_eq_some_iff {c : Char} (h : c.toNat < 128) (v : UInt8) :
    value? (UInt8.ofNat c.toNat) = some v ↔ IsDigit c v.toNat := by
  have hascii : ∀ k < 128, ∀ n < 16,
      value? (UInt8.ofNat k) = some (UInt8.ofNat n) ↔ (Char.ofNat k).toLower = digit n := by
    decide +kernel
  have hcase := fun hlt => hascii c.toNat h v.toNat hlt
  rw [Char.ofNat_toNat, UInt8.ofNat_toNat] at hcase
  exact ⟨fun hvalue => ⟨value?_lt hvalue, (hcase (value?_lt hvalue)).1 hvalue⟩,
    fun hdigit => (hcase hdigit.1).2 hdigit.2⟩

/-- A character that is no digit begins with a byte that has no value. -/
theorem exists_head_of_not_isDigit {c : Char} (h : ∀ n, ¬ IsDigit c n) :
    ∃ b bytes, String.utf8EncodeChar c = b :: bytes ∧ value? b = none := by
  by_cases hascii : c.toNat < 128
  · refine ⟨_, [], utf8EncodeChar_of_lt hascii, ?_⟩
    cases hvalue : value? (UInt8.ofNat c.toNat) with
    | none => rfl
    | some v => exact absurd ((value?_eq_some_iff hascii v).1 hvalue) (h v.toNat)
  · have hlead : ∀ k < 256, 192 ≤ k → value? (UInt8.ofNat k) = none := by decide +kernel
    have hge : ¬ c.val.toNat ≤ 127 := fun hle => hascii (Nat.lt_succ_of_le hle)
    simp only [String.utf8EncodeChar.eq_def, if_neg hge]
    split
    · exact ⟨_, _, rfl, hlead _ (by omega) (by omega)⟩
    · split
      · exact ⟨_, _, rfl, hlead _ (by omega) (by omega)⟩
      · exact ⟨_, _, rfl, hlead _ (by omega) (by omega)⟩

/-! ### Texts -/

/-- A byte without a value in the first two places is refused. -/
theorem decodeFrom_ne_ok {b : UInt8} (h : value? b = none) (i : Nat) (rest bytes : List UInt8) :
    decodeFrom i (b :: rest) ≠ .ok bytes ∧
      ∀ c : UInt8, decodeFrom i (c :: b :: rest) ≠ .ok bytes := by
  constructor
  · cases rest with
    | nil => simp [decodeFrom]
    | cons l rest => simp [decodeFrom, h]
  · intro c
    cases hvalue : value? c <;> simp [decodeFrom, h, hvalue]

/-- Two digits in front add the byte that they spell. -/
theorem decodeFrom_digits_eq_ok_iff {high low : Char} (hhigh : high.toNat < 128)
    (hlow : low.toNat < 128) (i : Nat) (rest bytes : List UInt8) :
    decodeFrom i (UInt8.ofNat high.toNat :: UInt8.ofNat low.toNat :: rest) = .ok bytes ↔
      ∃ b behind, IsDigit high (b.toNat / 16) ∧ IsDigit low (b.toNat % 16) ∧
        decodeFrom (i + 2) rest = .ok behind ∧ bytes = b :: behind := by
  constructor
  · intro h
    simp only [decodeFrom] at h
    split at h
    · exact absurd h (by simp)
    · exact absurd h (by simp)
    · next hv lv hhv hlv =>
      split at h
      · next behind hbehind =>
        have hhighDigit := (value?_eq_some_iff hhigh hv).1 hhv
        have hlowDigit := (value?_eq_some_iff hlow lv).1 hlv
        have hsum : (hv * 16 + lv).toNat = hv.toNat * 16 + lv.toNat := by
          have hsixteen : (16 : UInt8).toNat = 16 := rfl
          have hvlt := hhighDigit.1
          have lvlt := hlowDigit.1
          rw [UInt8.toNat_add, UInt8.toNat_mul, hsixteen]
          omega
        have hlvlt := hlowDigit.1
        refine ⟨hv * 16 + lv, behind, ?_, ?_, hbehind, (Except.ok.inj h).symm⟩
        · rwa [hsum, show (hv.toNat * 16 + lv.toNat) / 16 = hv.toNat by omega]
        · rwa [hsum, show (hv.toNat * 16 + lv.toNat) % 16 = lv.toNat by omega]
      · exact absurd h (by simp)
  · rintro ⟨b, behind, hhighDigit, hlowDigit, hbehind, rfl⟩
    have hvalueHigh := (value?_eq_some_iff hhigh (UInt8.ofNat (b.toNat / 16))).2 (by
      rwa [UInt8.toNat_ofNat', Nat.mod_eq_of_lt (by have := high_lt b; omega)])
    have hvalueLow := (value?_eq_some_iff hlow (UInt8.ofNat (b.toNat % 16))).2 (by
      rwa [UInt8.toNat_ofNat', Nat.mod_eq_of_lt (by have := low_lt b; omega)])
    simp only [decodeFrom, hvalueHigh, hvalueLow, hbehind, halves]

/-- Characters are decoded exactly if they spell bytes. -/
theorem decodeFrom_eq_ok_iff :
    ∀ (cs : List Char) (i : Nat) (bytes : List UInt8),
      decodeFrom i (cs.flatMap String.utf8EncodeChar) = .ok bytes ↔ Spells cs bytes
  | [], i, bytes => by
      constructor
      · intro h
        obtain rfl : [] = bytes := Except.ok.inj h
        exact .nil
      · rintro ⟨⟩
        rfl
  | [c], i, bytes => by
      refine iff_of_false ?_ (fun h => by cases h)
      rw [List.flatMap_cons, List.flatMap_nil, List.append_nil]
      by_cases hdigit : ∃ n, IsDigit c n
      · obtain ⟨n, hn⟩ := hdigit
        rw [utf8EncodeChar_of_lt hn.lt]
        simp [decodeFrom]
      · obtain ⟨b, rest, hbytes, hnone⟩ := exists_head_of_not_isDigit (not_exists.1 hdigit)
        rw [hbytes]
        exact (decodeFrom_ne_ok hnone _ _ _).1
  | high :: low :: cs, i, bytes => by
      rw [List.flatMap_cons, List.flatMap_cons]
      by_cases hhigh : ∃ n, IsDigit high n
      · by_cases hlow : ∃ n, IsDigit low n
        · obtain ⟨⟨_, hn⟩, _, hm⟩ := And.intro hhigh hlow
          rw [utf8EncodeChar_of_lt hn.lt, utf8EncodeChar_of_lt hm.lt, List.singleton_append,
            List.singleton_append, decodeFrom_digits_eq_ok_iff hn.lt hm.lt]
          constructor
          · rintro ⟨b, behind, isHigh, isLow, hbehind, rfl⟩
            exact .byte isHigh isLow ((decodeFrom_eq_ok_iff cs _ _).1 hbehind)
          · intro h
            cases h with
            | byte isHigh isLow rest =>
                exact ⟨_, _, isHigh, isLow, (decodeFrom_eq_ok_iff cs _ _).2 rest, rfl⟩
        · refine iff_of_false ?_ fun h => ?_
          · obtain ⟨_, hn⟩ := hhigh
            obtain ⟨b, rest, hbytes, hnone⟩ := exists_head_of_not_isDigit (not_exists.1 hlow)
            rw [utf8EncodeChar_of_lt hn.lt, hbytes]
            exact (decodeFrom_ne_ok hnone _ _ _).2 _
          · cases h with
            | byte isHigh isLow rest => exact hlow ⟨_, isLow⟩
      · refine iff_of_false ?_ fun h => ?_
        · obtain ⟨b, rest, hbytes, hnone⟩ := exists_head_of_not_isDigit (not_exists.1 hhigh)
          rw [hbytes]
          exact (decodeFrom_ne_ok hnone _ _ _).1
        · cases h with
          | byte isHigh isLow rest => exact hhigh ⟨_, isHigh⟩

theorem Spells.length_bytes {cs : List Char} {bytes : List UInt8} (h : Spells cs bytes) :
    (cs.flatMap String.utf8EncodeChar).length = 2 * bytes.length := by
  induction h with
  | nil => rfl
  | byte isHigh isLow rest ih =>
      rw [List.flatMap_cons, List.flatMap_cons, utf8EncodeChar_of_lt isHigh.lt,
        utf8EncodeChar_of_lt isLow.lt, List.length_append, List.length_append, ih]
      simp only [List.length_cons, List.length_nil]
      omega

/-- The texts that are read as some bytes are those that spell them. -/
theorem decode_eq_ok_iff (text : String) (bytes : List UInt8) :
    decode text = .ok bytes ↔ Spells text.toList bytes := by
  rw [decode, Text.utf8_eq, ← decodeFrom_eq_ok_iff _ 0]
  constructor
  · intro h
    split at h
    · exact absurd h (by simp)
    · exact h
  · intro h
    have hlength := ((decodeFrom_eq_ok_iff _ 0 _).1 h).length_bytes
    rwa [if_neg (by omega)]

end Hex

/-- A text is a digest exactly if it spells the bytes. -/
theorem Digest.ofText_eq_ok_iff (text : String) (d : Digest) :
    ofText text = .ok d ↔ Hex.Spells text.toList d.bytes := by
  rw [← Hex.decode_eq_ok_iff, ofText]
  cases hdecode : Hex.decode text with
  | error e => simp
  | ok bytes =>
      simp only [ofExactly, Except.ok.injEq]
      constructor
      · intro h
        split at h
        · exact congrArg Digest.bytes (Except.ok.inj h)
        · exact absurd h (by simp)
      · rintro rfl
        rw [dif_pos d.size_eq]

end AnnotatedEnv
