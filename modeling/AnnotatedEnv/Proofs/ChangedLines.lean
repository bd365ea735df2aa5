/-
Module: AnnotatedEnv.Proofs.ChangedLines
Purpose: What is left of a patch without the instructions that change nothing.
Main exports: Patch.line?_of_applyTo_of_mem, Patch.line?_of_applyTo_of_ne, Patch.retainChanged_self,
  Patch.retainChanged_sublist_of_applyTo, Patch.Retains, Patch.retainChanged_invisible_and_minimal
Where every line has one instruction at most, no other instruction hides what is left out.
-/
import Mathlib.Data.List.Nodup
import Mathlib.Data.List.Perm.Subperm
import AnnotatedEnv.Proofs.Patch

namespace AnnotatedEnv.Patch

/-! ### Instructions and what they do -/

/-- Those instructions are retained that change their line. -/
theorem mem_retainChanged_iff (p : Patch) (d : Document) (i : LinePatch) :
    i ∈ (p.retainChanged d).instructions ↔ i ∈ p.instructions ∧ d.line? i.index ≠ some i.text := by
  rw [retainChanged, List.mem_filter, decide_eq_true_eq]

/-- Behind a patch with one instruction a line, every instruction is followed. -/
theorem line?_of_applyTo_of_mem {p : Patch} {d e : Document} (h : p.applyTo d = .ok e)
    (hdistinct : (p.instructions.map LinePatch.index).Nodup) {i : LinePatch}
    (hi : i ∈ p.instructions) : e.line? i.index = some i.text := by
  obtain ⟨_, hrange, rfl⟩ := (applyTo_eq_ok_iff p d e).1 h
  exact getElem?_replaceLines_of_mem hdistinct hi (hrange i hi)

/-- Behind a patch, a line that no instruction is for is as it was. -/
theorem line?_of_applyTo_of_ne {p : Patch} {d e : Document} (h : p.applyTo d = .ok e) {n : Nat}
    (hother : ∀ i ∈ p.instructions, i.index ≠ n) : e.line? n = d.line? n := by
  obtain ⟨_, _, rfl⟩ := (applyTo_eq_ok_iff p d e).1 h
  exact getElem?_replaceLines_of_ne hother d.lines

/-! ### Nothing more to leave out -/

/-- Retaining a second time drops nothing more. -/
theorem retainChanged_self (p : Patch) (d : Document) :
    (p.retainChanged d).retainChanged d = p.retainChanged d := by
  simp only [retainChanged, List.filter_filter, Bool.and_self]

/-- The instructions that change a line are in every part of the patch that gives the same lines. -/
theorem mem_of_applyTo_eq {p q : Patch} {d e : Document}
    (hdistinct : (p.instructions.map LinePatch.index).Nodup) (hp : p.applyTo d = .ok e)
    (hq : q.applyTo d = .ok e) (hpart : q.instructions.Sublist p.instructions) {i : LinePatch}
    (hi : i ∈ (p.retainChanged d).instructions) : i ∈ q.instructions := by
  obtain ⟨hmem, hchanges⟩ := (mem_retainChanged_iff p d i).1 hi
  have hnew := line?_of_applyTo_of_mem hp hdistinct hmem
  by_contra hnot
  -- Without it no instruction is for its line, and the line would be the old one.
  have hother : ∀ j ∈ q.instructions, j.index ≠ i.index := by
    intro j hj hindex
    obtain rfl := List.inj_on_of_nodup_map hdistinct (hpart.subset hj) hmem hindex
    exact hnot hj
  exact hchanges ((line?_of_applyTo_of_ne hq hother).symm.trans hnew)

/-- No part of a patch that gives the same lines has fewer instructions than those that change a
line. -/
theorem retainChanged_sublist_of_applyTo {p q : Patch} {d e : Document}
    (hdistinct : (p.instructions.map LinePatch.index).Nodup) (hp : p.applyTo d = .ok e)
    (hq : q.applyTo d = .ok e) (hpart : q.instructions.Sublist p.instructions) :
    (p.retainChanged d).instructions.Sublist q.instructions := by
  have hnodup : (p.retainChanged d).instructions.Nodup := (List.Nodup.of_map _ hdistinct).filter _
  have hsubset : (p.retainChanged d).instructions ⊆ (q.retainChanged d).instructions := by
    intro i hi
    rw [mem_retainChanged_iff]
    exact ⟨mem_of_applyTo_eq hdistinct hp hq hpart hi, ((mem_retainChanged_iff p d i).1 hi).2⟩
  have hlength := (hnodup.subperm hsubset).length_le
  have hsame : (q.retainChanged d).instructions = (p.retainChanged d).instructions :=
    (hpart.filter _).eq_of_length_le hlength
  rw [← hsame]
  exact List.filter_sublist

/-! ### What is left -/

/-- What is left of a patch for a document does the same as all of it, and nothing more can be left
out. -/
structure Retains (d : Document) (p kept : Patch) : Prop where
  base : kept.base = p.base
  order : kept.instructions.Sublist p.instructions
  /-- Nothing shows that instructions were left out, not even an error. -/
  applied : kept.applyTo d = p.applyTo d
  changing : ∀ i ∈ kept.instructions, ∀ line, d.line? i.index = some line → line ≠ i.text
  /-- Other parts of the patch that give the same lines have these instructions too. -/
  least : ∀ (q : Patch) (e : Document), q.instructions.Sublist p.instructions →
    p.applyTo d = .ok e → q.applyTo d = .ok e → kept.instructions.Sublist q.instructions
  settled : kept.retainChanged d = kept

/-- Without the instructions that change nothing, a patch with one instruction a line is the least
one that does the same, with the same base and in the same order. -/
theorem retainChanged_invisible_and_minimal {p : Patch} (d : Document)
    (hdistinct : (p.instructions.map LinePatch.index).Nodup) :
    Retains d p (p.retainChanged d) := by
  constructor
  case base => rfl
  case order => exact List.filter_sublist
  case applied => exact applyTo_retainChanged p d hdistinct
  case changing =>
    intro i hi line hline heq
    exact ((mem_retainChanged_iff p d i).1 hi).2 (hline.trans (congrArg some heq))
  case least =>
    exact fun q e hpart hp hq => retainChanged_sublist_of_applyTo hdistinct hp hq hpart
  case settled => exact retainChanged_self p d

/-- Instructions out of order that change a line, change nothing, or are for a missing line. -/
theorem mixed_patch_retained :
    let d := Document.ofLines ["a", "b", "c"]
    let p : Patch := ⟨d.digest, [⟨1, "b"⟩, ⟨5, "b"⟩, ⟨2, "C"⟩, ⟨3, ""⟩]⟩
    (p.instructions.map LinePatch.index).Nodup ∧
      p.retainChanged d = ⟨d.digest, [⟨5, "b"⟩, ⟨2, "C"⟩, ⟨3, ""⟩]⟩ ∧
      Retains d p (p.retainChanged d) ∧
      (p.retainChanged d).applyTo d = .error (.lineOutOfRange 5 3) := by
  intro d p
  have hdistinct : (p.instructions.map LinePatch.index).Nodup := by decide
  have hretains := retainChanged_invisible_and_minimal d hdistinct
  refine ⟨hdistinct, rfl, hretains, ?_⟩
  rw [hretains.applied, applyTo, checkBase, if_pos rfl]
  rfl

/-- Of two instructions for one line the last one counts. It may be needed to restore the line that
the other one changes. -/
example :
    let d := Document.ofLines ["a"]
    let p : Patch := ⟨d.digest, [⟨0, "x"⟩, ⟨0, "a"⟩]⟩
    replaceLines d.lines p.instructions = ["a"] ∧
      replaceLines d.lines (p.retainChanged d).instructions = ["x"] := by
  decide

end AnnotatedEnv.Patch
