/-
Module: AnnotatedEnv.Proofs.Replacement
Purpose: A patch made of a list of instructions replaces all its lines at once.
Main exports: Patch.find?_ofList, Patch.ReplacedBy, Patch.applyTo_ofList_of_missing,
  Patch.applyTo_ofList_of_present, Patch.replaces_at_once
The instructions are sorted, thinned out, checked and followed one after another. All of that is
invisible: a line gets the text of the first instruction for it.
-/
import Mathlib.Order.Bounds.Basic
import AnnotatedEnv.Proofs.InstructionOrder

namespace AnnotatedEnv

namespace Patch

/-! ### The first instruction for a line -/

/-- Sorting keeps the first of the instructions for a line in front. -/
theorem find?_insertSorted (p : LinePatch) (ps : List LinePatch) (i : Nat) :
    (insertSorted p ps).find? (·.index = i) = (p :: ps).find? (·.index = i) := by
  induction ps with
  | nil => rfl
  | cons q ps ih =>
      rw [insertSorted]
      split
      · rfl
      · next hlater =>
        -- `p` goes behind `q`, so the two are for different lines.
        rw [List.find?_cons, ih]
        by_cases hq : q.index = i
        · have hp : p.index ≠ i := by omega
          simp [hq, hp]
        · simp [hq, List.find?_cons]

theorem find?_sortByIndex (ps : List LinePatch) (i : Nat) :
    (sortByIndex ps).find? (·.index = i) = ps.find? (·.index = i) := by
  induction ps with
  | nil => rfl
  | cons p ps ih => rw [sortByIndex, find?_insertSorted, List.find?_cons, List.find?_cons, ih]

theorem find?_dropRepeats {last : Option Nat} {i : Nat} (hlast : last ≠ some i)
    (ps : List LinePatch) :
    (dropRepeats last ps).find? (·.index = i) = ps.find? (·.index = i) := by
  induction ps generalizing last with
  | nil => rfl
  | cons p ps ih =>
      rw [dropRepeats]
      by_cases hp : p.index = i
      · rw [if_neg (hp ▸ hlast)]
        simp [hp]
      · have hnext : some p.index ≠ some i := fun h => hp (Option.some.inj h)
        split
        · simp [hp, ih hlast]
        · simp [hp, ih hnext]

/-- Making a patch keeps the first instruction for every line. -/
theorem find?_ofList (base : Digest) (instructions : List LinePatch) (i : Nat) :
    (ofList base instructions).instructions.find? (·.index = i) =
      instructions.find? (·.index = i) := by
  rw [ofList, find?_dropRepeats (by simp), find?_sortByIndex]

theorem exists_index_ofList_iff (base : Digest) (instructions : List LinePatch) (i : Nat) :
    (∃ p ∈ (ofList base instructions).instructions, p.index = i) ↔
      ∃ p ∈ instructions, p.index = i := by
  have hsome := congrArg Option.isSome (find?_ofList base instructions i)
  simpa [List.find?_isSome] using congrArg (· = true) hsome

/-- The instruction that decides what a line becomes: the first one that is for it. -/
structure Decides (p : LinePatch) (instructions : List LinePatch) : Prop where
  first : ∃ front back, instructions = front ++ p :: back ∧ ∀ q ∈ front, q.index ≠ p.index

theorem Decides.mem_ofList {p : LinePatch} {instructions : List LinePatch}
    (h : Decides p instructions) (base : Digest) :
    p ∈ (ofList base instructions).instructions := by
  obtain ⟨front, back, rfl, hfront⟩ := h.first
  have hfound : (front ++ p :: back).find? (·.index = p.index) = some p :=
    List.find?_eq_some_iff_append.2 ⟨by simp, front, back, rfl, by simpa using hfront⟩
  rw [← find?_ofList base] at hfound
  exact List.mem_of_find?_eq_some hfound

/-! ### Missing lines -/

/-- In order, the first instruction for a missing line is the one with the smallest index. -/
theorem InOrder.find?_le {p : Patch} (h : p.InOrder) {n : Nat} {bad : LinePatch}
    (hbad : p.instructions.find? (n ≤ ·.index) = some bad) {q : LinePatch}
    (hq : q ∈ p.instructions) (hmissing : n ≤ q.index) : bad.index ≤ q.index := by
  obtain ⟨_, front, back, hsplit, hfront⟩ := List.find?_eq_some_iff_append.1 hbad
  rw [InOrder, hsplit, List.pairwise_append, List.pairwise_cons] at h
  rw [hsplit, List.mem_append, List.mem_cons] at hq
  rcases hq with hq | rfl | hq
  · exact absurd hmissing (by simpa using hfront q hq)
  · exact Nat.le_refl _
  · exact Nat.le_of_lt (h.2.1.1 q hq)

/-- A patch for missing lines names the first of them. -/
theorem applyTo_ofList_of_missing {d : Document} {instructions : List LinePatch}
    (h : ∃ p ∈ instructions, d.size ≤ p.index) :
    ∃ i, IsLeast {i | d.size ≤ i ∧ ∃ p ∈ instructions, p.index = i} i ∧
      (ofList d.digest instructions).applyTo d = .error (.lineOutOfRange i d.size) := by
  have hindex := exists_index_ofList_iff d.digest instructions
  obtain ⟨p, hp, hmissing⟩ := h
  obtain ⟨q, hq, hqp⟩ := (hindex p.index).2 ⟨p, hp, rfl⟩
  cases hbad : (ofList d.digest instructions).instructions.find? (d.size ≤ ·.index) with
  | none => exact absurd (hqp ▸ hmissing) (by simpa using List.find?_eq_none.1 hbad q hq)
  | some bad =>
      refine ⟨bad.index, ⟨⟨by simpa using List.find?_some hbad, ?_⟩, ?_⟩, ?_⟩
      · exact (hindex bad.index).1 ⟨bad, List.mem_of_find?_eq_some hbad, rfl⟩
      · rintro i ⟨hi, hlisted⟩
        obtain ⟨r, hr, rfl⟩ := (hindex i).2 hlisted
        exact (inOrder_ofList d.digest instructions).find?_le hbad hr hi
      · have hbase : (ofList d.digest instructions).base = d.digest := rfl
        simp only [applyTo, checkBase, if_pos hbase, hbad]

/-! ### All lines at once -/

/-- A document in which every line that some instruction is for has the text of the first such
instruction, and in which all else is as it was. -/
structure ReplacedBy (instructions : List LinePatch) (old new : Document) : Prop where
  size : new.size = old.size
  lineEnding : new.lineEnding = old.lineEnding
  trailingNewline : new.trailingNewline = old.trailingNewline
  given : ∀ p, Decides p instructions → new.line? p.index = some p.text
  kept : ∀ i, (∀ p ∈ instructions, p.index ≠ i) → new.line? i = old.line? i
  digest : new.digest = Digest.ofLines new.lines

theorem applyTo_ofList_of_present {d : Document} {instructions : List LinePatch}
    (h : ∀ p ∈ instructions, p.index < d.size) :
    ∃ new, (ofList d.digest instructions).applyTo d = .ok new ∧
      ReplacedBy instructions d new := by
  have hindex := exists_index_ofList_iff d.digest instructions
  have hrange : ∀ q ∈ (ofList d.digest instructions).instructions, q.index < d.size := by
    intro q hq
    obtain ⟨p, hp, hpq⟩ := (hindex q.index).1 ⟨q, hq, rfl⟩
    exact hpq ▸ h p hp
  refine ⟨_, (applyTo_eq_ok_iff _ d _).2 ⟨rfl, hrange, rfl⟩, ?_⟩
  constructor
  · exact length_replaceLines d.lines _
  · rfl
  · rfl
  · intro p hp
    have hmem := hp.mem_ofList d.digest
    exact getElem?_replaceLines_of_mem (inOrder_ofList d.digest instructions).nodup hmem
      (hrange p hmem)
  · intro i hother
    refine getElem?_replaceLines_of_ne (fun q hq hqi => ?_) d.lines
    obtain ⟨p, hp, hpi⟩ := (hindex i).1 ⟨q, hq, hqi⟩
    exact hother p hp hpi
  · rfl

/-- A patch made of a list of instructions replaces lines at once: with an instruction for a missing
line it names the first such line, and else every line has the text that was listed first for it. A
patch for other lines is refused as such. -/
theorem replaces_at_once :
    (∀ (d : Document) (instructions : List LinePatch),
      ((∃ p ∈ instructions, d.size ≤ p.index) →
        ∃ i, IsLeast {i | d.size ≤ i ∧ ∃ p ∈ instructions, p.index = i} i ∧
          (ofList d.digest instructions).applyTo d = .error (.lineOutOfRange i d.size)) ∧
      ((∀ p ∈ instructions, p.index < d.size) →
        ∃ new, (ofList d.digest instructions).applyTo d = .ok new ∧
          ReplacedBy instructions d new)) ∧
    ∀ (p : Patch) (d : Document), p.base ≠ d.digest →
      p.applyTo d = .error (.baseMismatch p.base d.digest) :=
  ⟨fun _ _ => ⟨applyTo_ofList_of_missing, applyTo_ofList_of_present⟩,
    fun _ _ => applyTo_of_base_ne⟩

/-- Two texts for one line, three missing lines out of order, and a missing line of other lines. -/
theorem unsorted_instructions_replace_at_once :
    let d := Document.mk' ["a", "b", "c"] .crlf false
    let other := Document.ofLines ["a", "b"]
    (∃ new, (ofList d.digest [⟨2, "C"⟩, ⟨0, "A"⟩, ⟨2, "D"⟩]).applyTo d = .ok new ∧
      new.line? 0 = some "A" ∧ new.line? 1 = some "b" ∧ new.line? 2 = some "C" ∧
      new.size = 3 ∧ new.lineEnding = .crlf ∧ new.trailingNewline = false) ∧
    (ofList d.digest [⟨7, "H"⟩, ⟨0, "A"⟩, ⟨3, "D"⟩, ⟨5, "F"⟩]).applyTo d =
      .error (.lineOutOfRange 3 3) ∧
    (ofList other.digest [⟨9, "J"⟩]).applyTo d =
      .error (.baseMismatch other.digest d.digest) := by
  intro d other
  obtain ⟨hlisted, hforeign⟩ := replaces_at_once
  refine ⟨?_, ?_, hforeign _ d (by decide +kernel)⟩
  · obtain ⟨new, happlied, hnew⟩ :=
      (hlisted d [⟨2, "C"⟩, ⟨0, "A"⟩, ⟨2, "D"⟩]).2 (by decide)
    have hfirst := hnew.given ⟨2, "C"⟩ ⟨[], [⟨0, "A"⟩, ⟨2, "D"⟩], rfl, by decide⟩
    have hsecond := hnew.given ⟨0, "A"⟩ ⟨[⟨2, "C"⟩], [⟨2, "D"⟩], rfl, by decide⟩
    exact ⟨new, happlied, hsecond, hnew.kept 1 (by decide), hfirst, hnew.size, hnew.lineEnding,
      hnew.trailingNewline⟩
  · obtain ⟨i, hleast, hrefused⟩ :=
      (hlisted d [⟨7, "H"⟩, ⟨0, "A"⟩, ⟨3, "D"⟩, ⟨5, "F"⟩]).1 (by decide)
    have hthree : IsLeast {i | d.size ≤ i ∧ ∃ p ∈ [(⟨7, "H"⟩ : LinePatch), ⟨0, "A"⟩, ⟨3, "D"⟩,
        ⟨5, "F"⟩], p.index = i} 3 :=
      ⟨⟨by decide, by decide⟩, fun i hi => hi.1⟩
    obtain rfl : i = 3 := hleast.unique hthree
    exact hrefused

end Patch

end AnnotatedEnv
