/-
Module: AnnotatedEnv.Proofs.LineStream
Purpose: Different lists of lines have different byte streams.
Main exports: Digest.valueOf, Digest.Counts, Digest.Frames, Digest.StreamOf, Digest.WithinCounts,
  Digest.lineStream_eq_iff, Digest.StreamOf.unique, Digest.Recut, Digest.stream_determines_lines
Every count has eight bytes and stands in front of what it counts. So a stream is read from its
front, whatever bytes the lines hold, and none begins another one.
-/
import Mathlib.Algebra.GroupWithZero.Nat
import AnnotatedEnv.Digest

namespace AnnotatedEnv

open Text

namespace Digest

/-! ### Counts -/

/-- The number that some bytes stand for, the lowest byte first. -/
def valueOf : List UInt8 → Nat
  | [] => 0
  | b :: bytes => b.toNat + 256 * valueOf bytes

theorem length_littleEndian (k n : Nat) : (littleEndian k n).length = k := by
  induction k generalizing n with
  | zero => rfl
  | succ k ih => rw [littleEndian, List.length_cons, ih]

/-- As many bytes as there are keep the number up to what they can hold. -/
theorem valueOf_littleEndian (k n : Nat) : valueOf (littleEndian k n) = n % 256 ^ k := by
  induction k generalizing n with
  | zero => rw [littleEndian, valueOf, Nat.pow_zero, Nat.mod_one]
  | succ k ih =>
      have hbyte : (UInt8.ofNat n).toNat = n % 256 := UInt8.toNat_ofNat'
      rw [littleEndian, valueOf, ih, hbyte, Nat.pow_succ, Nat.mul_comm (256 ^ k), Nat.mod_mul]

/-- Bytes are written again from their value. -/
theorem littleEndian_valueOf (bytes : List UInt8) :
    littleEndian bytes.length (valueOf bytes) = bytes := by
  induction bytes with
  | nil => rfl
  | cons b bytes ih =>
      have hlt : b.toNat < 256 := b.toNat_lt
      have hrest : (b.toNat + 256 * valueOf bytes) / 256 = valueOf bytes := by omega
      have hfirst : UInt8.ofNat (b.toNat + 256 * valueOf bytes) = b := by
        rw [← UInt8.toNat_inj, UInt8.toNat_ofNat']
        omega
      rw [valueOf, List.length_cons, littleEndian, hrest, hfirst, ih]

/-- Eight bytes that stand for the number. -/
structure Counts (bytes : List UInt8) (n : Nat) : Prop where
  size : bytes.length = 8
  value : valueOf bytes = n

/-- A number that is a word is counted by its eight bytes. -/
theorem counts_littleEndian {n : Nat} (h : n < 2 ^ 64) : Counts (littleEndian 8 n) n := by
  refine ⟨length_littleEndian 8 n, ?_⟩
  rw [valueOf_littleEndian]
  exact Nat.mod_eq_of_lt h

/-- No other eight bytes count it. -/
theorem Counts.eq_littleEndian {bytes : List UInt8} {n : Nat} (h : Counts bytes n) :
    bytes = littleEndian 8 n := by
  rw [← h.value, ← h.size, littleEndian_valueOf]

/-! ### Streams -/

/-- The bytes of some lines one after another, each line behind the number of its bytes. -/
inductive Frames : (lines : List String) → (bytes : List UInt8) → Prop where
  | nil : Frames [] []
  | line {line : String} {lines : List String} {count bytes : List UInt8}
      (counted : Counts count (utf8 line).length) (behind : Frames lines bytes) :
      Frames (line :: lines) (count ++ (utf8 line ++ bytes))

/-- The stream of some lines: their number, then the lines. -/
inductive StreamOf (lines : List String) : (bytes : List UInt8) → Prop where
  | counted {count bytes : List UInt8} (counts : Counts count lines.length)
      (frames : Frames lines bytes) : StreamOf lines (count ++ bytes)

/-- Numbers of lines and of bytes that eight bytes can count. -/
structure WithinCounts (lines : List String) : Prop where
  count : lines.length < 2 ^ 64
  sizes : ∀ line ∈ lines, (utf8 line).length < 2 ^ 64

/-- Lines are framed by writing each behind its length. -/
theorem frames_lineBytes {lines : List String}
    (h : ∀ line ∈ lines, (utf8 line).length < 2 ^ 64) : Frames lines (lines.flatMap lineBytes) := by
  induction lines with
  | nil => exact .nil
  | cons line lines ih =>
      obtain ⟨hline, hlines⟩ := List.forall_mem_cons.1 h
      rw [List.flatMap_cons, lineBytes, List.append_assoc]
      exact .line (counts_littleEndian hline) (ih hlines)

/-- There is no other way of framing them. -/
theorem Frames.eq_lineBytes {lines : List String} {bytes : List UInt8} (h : Frames lines bytes) :
    bytes = lines.flatMap lineBytes := by
  induction h with
  | nil => rfl
  | line counted behind ih =>
      rw [List.flatMap_cons, lineBytes, List.append_assoc, ← counted.eq_littleEndian, ← ih]

/-- What is hashed for some lines is their stream and nothing else. -/
theorem lineStream_eq_iff {lines : List String} (h : WithinCounts lines) (bytes : List UInt8) :
    lineStream lines = bytes ↔ StreamOf lines bytes := by
  constructor
  · rintro rfl
    exact .counted (counts_littleEndian h.count) (frames_lineBytes h.sizes)
  · rintro ⟨counts, frames⟩
    rw [lineStream, counts.eq_littleEndian, frames.eq_lineBytes]

/-! ### Reading a stream from its front -/

/-- Counts in front of two texts that are the same bytes are the same, and so are the texts. -/
theorem Counts.unique {count count' bytes bytes' : List UInt8} {n n' : Nat} (h : Counts count n)
    (h' : Counts count' n') (heq : count ++ bytes = count' ++ bytes') :
    n = n' ∧ bytes = bytes' := by
  obtain ⟨hcount, hbytes⟩ := List.append_inj heq (h.size.trans h'.size.symm)
  exact ⟨by rw [← h.value, ← h'.value, hcount], hbytes⟩

/-- The induction goes along the lines, with any bytes behind them: what a line leaves is read as
the next lines. -/
theorem Frames.unique {lines lines' : List String} {bytes bytes' : List UInt8}
    (h : Frames lines bytes) (h' : Frames lines' bytes') (hlength : lines.length = lines'.length)
    {rest rest' : List UInt8} (heq : bytes ++ rest = bytes' ++ rest') :
    lines = lines' ∧ rest = rest' := by
  induction h generalizing lines' bytes' with
  | nil =>
      obtain rfl : lines' = [] := List.eq_nil_of_length_eq_zero hlength.symm
      cases h'
      exact ⟨rfl, heq⟩
  | line counted behind ih =>
      cases h' with
      | nil => exact absurd hlength (by simp)
      | line counted' behind' =>
          simp only [List.append_assoc] at heq
          obtain ⟨hsize, hbehind⟩ := counted.unique counted' heq
          obtain ⟨htext, hrest⟩ := List.append_inj hbehind hsize
          obtain ⟨hlines, hend⟩ := ih behind' (Nat.succ.inj hlength) hrest
          exact ⟨by rw [utf8_inj.1 htext, hlines], hend⟩

/-- A stream with anything behind it is the stream of one list of lines only. -/
theorem StreamOf.unique {lines lines' : List String} {bytes bytes' : List UInt8}
    (h : StreamOf lines bytes) (h' : StreamOf lines' bytes') {rest rest' : List UInt8}
    (heq : bytes ++ rest = bytes' ++ rest') : lines = lines' ∧ rest = rest' := by
  obtain ⟨counts, frames⟩ := h
  obtain ⟨counts', frames'⟩ := h'
  rw [List.append_assoc, List.append_assoc] at heq
  obtain ⟨hlength, hframes⟩ := counts.unique counts' heq
  exact frames.unique frames' hlength hframes

/-! ### Other lines of the same text -/

/-- The text of some lines in other lines. -/
inductive Recut : (lines lines' : List String) → Prop where
  /-- Lines are split where a separator stands, which is dropped and may be empty. -/
  | split (separator : String) {parts : List (List String)} (filled : ∀ part ∈ parts, part ≠ [])
      (several : ∃ part ∈ parts, 1 < part.length) :
      Recut (parts.map separator.intercalate) parts.flatten
  /-- Lines are joined, with a separator between them that may be empty. -/
  | joined (separator : String) {parts : List (List String)} (filled : ∀ part ∈ parts, part ≠ [])
      (several : ∃ part ∈ parts, 1 < part.length) :
      Recut parts.flatten (parts.map separator.intercalate)
  /-- The text is the same, but some of it stands on the other side of a line's end. -/
  | moved {lines lines' : List String} (text : String.join lines = String.join lines') {n : Nat}
      (across : String.join (lines.take n) ≠ String.join (lines'.take n)) : Recut lines lines'
  /-- There are more empty lines. -/
  | padded {lines lines' : List String} (filled : lines.filter (· ≠ "") = lines'.filter (· ≠ ""))
      (added : lines.count "" < lines'.count "") : Recut lines lines'

theorem length_le_flatten {parts : List (List String)} (h : ∀ part ∈ parts, part ≠ []) :
    parts.length ≤ parts.flatten.length := by
  induction parts with
  | nil => exact Nat.le_refl 0
  | cons part parts ih =>
      obtain ⟨hpart, hparts⟩ := List.forall_mem_cons.1 h
      have hpos := List.length_pos_iff.2 hpart
      have hrest := ih hparts
      rw [List.flatten_cons, List.length_append, List.length_cons]
      omega

theorem length_lt_flatten {parts : List (List String)} (h : ∀ part ∈ parts, part ≠ [])
    (hseveral : ∃ part ∈ parts, 1 < part.length) : parts.length < parts.flatten.length := by
  obtain ⟨part, hpart, hlong⟩ := hseveral
  obtain ⟨front, back, rfl⟩ := List.append_of_mem hpart
  obtain ⟨hfront, hback⟩ := List.forall_mem_append.1 h
  have hfrontLength := length_le_flatten hfront
  have hbackLength := length_le_flatten (List.forall_mem_cons.1 hback).2
  simp only [List.flatten_append, List.flatten_cons, List.length_append, List.length_cons]
  omega

/-- Lines that are cut in another way are other lines. -/
theorem Recut.ne {lines lines' : List String} (h : Recut lines lines') : lines ≠ lines' := by
  intro heq
  cases h with
  | split separator filled several =>
      have hlength := congrArg List.length heq
      rw [List.length_map] at hlength
      exact absurd hlength (Nat.ne_of_lt (length_lt_flatten filled several))
  | joined separator filled several =>
      have hlength := congrArg List.length heq
      rw [List.length_map] at hlength
      exact absurd hlength.symm (Nat.ne_of_lt (length_lt_flatten filled several))
  | moved text across => exact across (by rw [heq])
  | padded filled added => exact absurd (congrArg (List.count "") heq) (Nat.ne_of_lt added)

/-! ### The stream names the lines -/

/-- The bytes that are hashed for some lines are their stream, and other lines have another one, in
particular those that the same text makes when it is cut in another way. -/
theorem stream_determines_lines {lines lines' : List String} (h : WithinCounts lines)
    (h' : WithinCounts lines') :
    (∀ bytes, lineStream lines = bytes ↔ StreamOf lines bytes) ∧
      (lineStream lines = lineStream lines' → lines = lines') ∧
      (Recut lines lines' → lineStream lines ≠ lineStream lines') := by
  have hstream := (lineStream_eq_iff h _).1 rfl
  have hstream' := (lineStream_eq_iff h' _).1 rfl
  have hdetermines : lineStream lines = lineStream lines' → lines = lines' := fun heq =>
    (hstream.unique hstream' (congrArg (· ++ []) heq)).1
  exact ⟨lineStream_eq_iff h, hdetermines, fun hrecut heq => hrecut.ne (hdetermines heq)⟩

/-- A line whose bytes are the stream of two lines but for their number, and the same two lines. -/
theorem counts_within_line_determine :
    let lines := ["\x01\x00\x00\x00\x00\x00\x00\x00a\x00\x00\x00\x00\x00\x00\x00\x00"]
    let lines' := ["a", ""]
    WithinCounts lines ∧ WithinCounts lines' ∧ lineStream lines ≠ lineStream lines' ∧
      Recut ["a\n"] lines' ∧ lineStream ["a\n"] ≠ lineStream lines' := by
  intro lines lines'
  have h : WithinCounts lines := ⟨by decide, by decide +kernel⟩
  have h' : WithinCounts lines' := ⟨by decide, by decide +kernel⟩
  have hjoined : WithinCounts ["a\n"] := ⟨by decide, by decide +kernel⟩
  have hrecut : Recut ["a\n"] lines' :=
    @Recut.split "\n" [["a", ""]] (by decide) ⟨_, List.mem_singleton_self _, by decide⟩
  exact ⟨h, h', fun heq => absurd ((stream_determines_lines h h').2.1 heq) (by decide), hrecut,
    (stream_determines_lines hjoined h').2.2 hrecut⟩

end Digest

end AnnotatedEnv
