/-
Module: AnnotatedEnv.Proofs.InstructionOrder
Purpose: In which order the instructions of a patch stand, however the patch was obtained, and what
  depends on it.
Main exports: Patch.InOrder, Patch.inOrder_ofList, Patch.ofList_perm, Patch.InOrder.covers,
  Patch.InOrder.not_covers, Patch.InOrder.orderFree, Patch.retainAll, Patch.Origin,
  Patch.order_of_obtained
Making a patch of a list sorts the instructions. Reading its JSON form takes them as they come, so
any list of instructions can be obtained that way.
-/
import Mathlib.Data.List.Nodup
import AnnotatedEnv.Proofs.Forms
import AnnotatedEnv.Proofs.Patch

namespace AnnotatedEnv

namespace Patch

/-- The lines of the instructions go up strictly, so no line has two. -/
def InOrder (p : Patch) : Prop := p.instructions.Pairwise fun a b => a.index < b.index

instance (p : Patch) : Decidable p.InOrder :=
  inferInstanceAs (Decidable (p.instructions.Pairwise fun a b => a.index < b.index))

/-- In order, no line has two instructions. -/
theorem InOrder.nodup {p : Patch} (h : p.InOrder) :
    (p.instructions.map LinePatch.index).Nodup :=
  List.pairwise_map.2 (h.imp fun hlt => Nat.ne_of_lt hlt)

/-! ### Sorted instructions -/

theorem insertSorted_perm (p : LinePatch) (ps : List LinePatch) :
    (insertSorted p ps).Perm (p :: ps) := by
  induction ps with
  | nil => exact .refl _
  | cons q qs ih =>
      rw [insertSorted]
      split
      · exact .refl _
      · exact (ih.cons q).trans (.swap p q qs)

/-- Sorting keeps every instruction. -/
theorem sortByIndex_perm (ps : List LinePatch) : (sortByIndex ps).Perm ps := by
  induction ps with
  | nil => exact .refl _
  | cons p ps ih => exact (insertSorted_perm p _).trans (ih.cons p)

theorem pairwise_insertSorted {p : LinePatch} {ps : List LinePatch}
    (h : ps.Pairwise fun a b => a.index ≤ b.index) :
    (insertSorted p ps).Pairwise fun a b => a.index ≤ b.index := by
  induction ps with
  | nil => exact List.pairwise_singleton _ p
  | cons q qs ih =>
      obtain ⟨hfirst, hrest⟩ := List.pairwise_cons.1 h
      rw [insertSorted]
      split
      · next hle =>
        refine List.pairwise_cons.2 ⟨fun r hr => ?_, h⟩
        rcases List.mem_cons.1 hr with rfl | hr
        · exact hle
        · exact Nat.le_trans hle (hfirst r hr)
      · next hgt =>
        refine List.pairwise_cons.2 ⟨fun r hr => ?_, ih hrest⟩
        rcases List.mem_cons.1 ((insertSorted_perm p qs).mem_iff.1 hr) with rfl | hr
        · exact Nat.le_of_not_le hgt
        · exact hfirst r hr

/-- Sorted instructions go up, though not strictly. -/
theorem pairwise_sortByIndex (ps : List LinePatch) :
    (sortByIndex ps).Pairwise fun a b => a.index ≤ b.index := by
  induction ps with
  | nil => exact .nil
  | cons p ps ih => exact pairwise_insertSorted ih

theorem dropRepeats_sublist (last : Option Nat) (ps : List LinePatch) :
    (dropRepeats last ps).Sublist ps := by
  induction ps generalizing last with
  | nil => exact .refl _
  | cons p ps ih =>
      rw [dropRepeats]
      split
      · exact (ih last).cons p
      · exact (ih (some p.index)).cons_cons p

/-- Behind a line that was just seen only later lines are kept. -/
theorem lt_of_mem_dropRepeats {last : Nat} {ps : List LinePatch}
    (hsorted : ps.Pairwise fun a b => a.index ≤ b.index) (hlast : ∀ q ∈ ps, last ≤ q.index)
    {q : LinePatch} (hq : q ∈ dropRepeats (some last) ps) : last < q.index := by
  induction ps with
  | nil => exact absurd hq (by simp [dropRepeats])
  | cons p ps ih =>
      obtain ⟨hfirst, hrest⟩ := List.pairwise_cons.1 hsorted
      have hp := hlast p (List.mem_cons_self ..)
      rw [dropRepeats] at hq
      split at hq
      · exact ih hrest (fun r hr => hlast r (List.mem_cons_of_mem p hr)) hq
      · next hne =>
        have hlt : last < p.index := Nat.lt_of_le_of_ne hp fun heq => hne (congrArg some heq)
        rcases List.mem_cons.1 hq with rfl | hq
        · exact hlt
        · exact Nat.lt_of_lt_of_le hlt (hfirst q ((dropRepeats_sublist _ ps).subset hq))

/-- Without repeats they go up strictly. -/
theorem pairwise_dropRepeats {last : Option Nat} {ps : List LinePatch}
    (hsorted : ps.Pairwise fun a b => a.index ≤ b.index) :
    (dropRepeats last ps).Pairwise fun a b => a.index < b.index := by
  induction ps generalizing last with
  | nil => exact .nil
  | cons p ps ih =>
      obtain ⟨hfirst, hrest⟩ := List.pairwise_cons.1 hsorted
      rw [dropRepeats]
      split
      · exact ih hrest
      · exact List.pairwise_cons.2
          ⟨fun q hq => lt_of_mem_dropRepeats hrest hfirst hq, ih hrest⟩

/-- A patch that is made of a list is in order, whatever the list. -/
theorem inOrder_ofList (base : Digest) (instructions : List LinePatch) :
    (ofList base instructions).InOrder :=
  pairwise_dropRepeats (pairwise_sortByIndex instructions)

theorem inOrder_empty (base : Digest) : (empty base).InOrder := List.Pairwise.nil

/-- Instructions that go up strictly have no repeats to drop. -/
theorem dropRepeats_of_pairwise {last : Option Nat} {ps : List LinePatch}
    (h : ps.Pairwise fun a b => a.index < b.index) (hlast : ∀ q ∈ ps, last ≠ some q.index) :
    dropRepeats last ps = ps := by
  induction ps generalizing last with
  | nil => rfl
  | cons p ps ih =>
      obtain ⟨hfirst, hrest⟩ := List.pairwise_cons.1 h
      have hnext : ∀ q ∈ ps, some p.index ≠ some q.index := fun q hq heq =>
        absurd (Option.some.inj heq) (Nat.ne_of_lt (hfirst q hq))
      rw [dropRepeats, if_neg (hlast p (List.mem_cons_self ..)), ih hrest hnext]

/-- The instructions of a patch in order give the patch again, in whatever order they are listed. -/
theorem ofList_perm {p : Patch} (h : p.InOrder) {instructions : List LinePatch}
    (hperm : instructions.Perm p.instructions) : ofList p.base instructions = p := by
  have hsorted : sortByIndex instructions = p.instructions := by
    refine List.Perm.eq_of_pairwise ?_ (pairwise_sortByIndex instructions)
      (h.imp fun hlt => Nat.le_of_lt hlt) ((sortByIndex_perm instructions).trans hperm)
    intro a b ha hb hab hba
    have hmem : a ∈ p.instructions := hperm.mem_iff.1 ((sortByIndex_perm _).mem_iff.1 ha)
    exact List.inj_on_of_nodup_map h.nodup hmem hb (Nat.le_antisymm hab hba)
  rw [ofList, hsorted, dropRepeats_of_pairwise h fun _ _ => by simp]

/-! ### The range -/

def lastIndex : Nat := 18446744073709551615

/-- Every instruction has an index that a word of sixty-four bits can hold. -/
def IndicesFit (p : Patch) : Prop := ∀ i ∈ p.instructions, i.index < 18446744073709551616

/-- A line in the range of a patch. -/
def Covers (p : Patch) (index : Nat) : Prop :=
  ∃ first last, p.lineRange? = some (first, last) ∧ first ≤ index ∧ index < last

/-- The first instruction has the least index. -/
theorem InOrder.head_le {p : Patch} (h : p.InOrder) {first i : LinePatch}
    (hfirst : p.instructions.head? = some first) (hi : i ∈ p.instructions) :
    first.index ≤ i.index := by
  obtain ⟨later, hlater⟩ := List.head?_eq_some_iff.1 hfirst
  rw [InOrder, hlater, List.pairwise_cons] at h
  rw [hlater, List.mem_cons] at hi
  rcases hi with rfl | hi
  · exact Nat.le_refl _
  · exact Nat.le_of_lt (h.1 i hi)

/-- The last instruction has the greatest index. -/
theorem InOrder.le_last {p : Patch} (h : p.InOrder) {last i : LinePatch}
    (hlast : p.instructions.getLast? = some last) (hi : i ∈ p.instructions) :
    i.index ≤ last.index := by
  obtain ⟨front, hfront⟩ := List.getLast?_eq_some_iff.1 hlast
  rw [InOrder, hfront, List.pairwise_append] at h
  rw [hfront, List.mem_append, List.mem_singleton] at hi
  rcases hi with hi | rfl
  · exact Nat.le_of_lt (h.2.2 i hi last (List.mem_singleton_self last))
  · exact Nat.le_refl _

/-- The range of a patch in order has the lines of all its instructions, if a word can count to
behind the last of them. -/
theorem InOrder.covers {p : Patch} (h : p.InOrder)
    (hbelow : ∀ i ∈ p.instructions, i.index ≠ lastIndex) (hwords : p.IndicesFit) {i : LinePatch}
    (hi : i ∈ p.instructions) : p.Covers i.index := by
  have hne : p.instructions ≠ [] := List.ne_nil_of_mem hi
  have hfirst := List.head?_eq_some_head hne
  have hlast := List.getLast?_eq_some_getLast hne
  have hmem := List.getLast_mem hne
  have hroom : (p.instructions.getLast hne).index + 1 < 18446744073709551616 := by
    have hword := hwords _ hmem
    have hother := hbelow _ hmem
    rw [lastIndex] at hother
    omega
  refine ⟨_, _, ?_, h.head_le hfirst hi, Nat.lt_succ_of_le (h.le_last hlast hi)⟩
  simp only [lineRange?, hfirst, hlast, Nat.mod_eq_of_lt hroom]

/-- The range of a patch in order has no line at all if there is an instruction for the greatest
index. -/
theorem InOrder.not_covers {p : Patch} (h : p.InOrder) (hwords : p.IndicesFit) {i : LinePatch}
    (hi : i ∈ p.instructions) (hgreatest : i.index = lastIndex) (index : Nat) :
    ¬ p.Covers index := by
  have hne : p.instructions ≠ [] := List.ne_nil_of_mem hi
  have hfirst := List.head?_eq_some_head hne
  have hlast := List.getLast?_eq_some_getLast hne
  have hgreatestLast : (p.instructions.getLast hne).index = lastIndex := by
    have hword := hwords _ (List.getLast_mem hne)
    have hle := h.le_last hlast hi
    rw [lastIndex] at hgreatest ⊢
    omega
  have hrange : p.lineRange? = some ((p.instructions.head hne).index, 0) := by
    simp only [lineRange?, hfirst, hlast, hgreatestLast]
    rfl
  rintro ⟨first, last, hlines, _, hlt⟩
  cases hrange.symm.trans hlines
  exact absurd hlt (Nat.not_lt_zero index)

/-! ### Orders of application -/

/-- Results that are the same, but where a line is missing another one may be named. -/
inductive SameOutcome : Except PatchError Document → Except PatchError Document → Prop where
  | same (result : Except PatchError Document) : SameOutcome result result
  | missing (i j size : Nat) :
      SameOutcome (.error (.lineOutOfRange i size)) (.error (.lineOutOfRange j size))

/-- A patch for which it makes no difference in which order its instructions are. -/
structure OrderFree (p : Patch) : Prop where
  /-- A patch that is made of the instructions in another order is the same patch. -/
  relisted : ∀ instructions : List LinePatch, instructions.Perm p.instructions →
    ofList p.base instructions = p
  /-- The instructions may be followed in another order. -/
  applied : ∀ instructions : List LinePatch, instructions.Perm p.instructions → ∀ d,
    SameOutcome ((⟨p.base, instructions⟩ : Patch).applyTo d) (p.applyTo d)

/-- With one instruction a line the lines can be replaced in any order. -/
theorem replaceLines_perm {ps qs : List LinePatch} (hperm : ps.Perm qs)
    (hnodup : (ps.map LinePatch.index).Nodup) (lines : List String) :
    replaceLines lines ps = replaceLines lines qs := by
  refine hperm.foldl_eq' (fun p hp q hq lines => ?_) lines
  by_cases hindex : p.index = q.index
  · rw [List.inj_on_of_nodup_map hnodup hp hq hindex]
  · exact List.set_comm _ _ hindex

/-- A patch with an instruction for a missing line tells some such line. -/
theorem applyTo_of_missing {p : Patch} {d : Document} (hbase : p.base = d.digest) {i : LinePatch}
    (hi : i ∈ p.instructions) (hmissing : d.size ≤ i.index) :
    ∃ index, p.applyTo d = .error (.lineOutOfRange index d.size) := by
  cases hbad : p.instructions.find? fun i => d.size ≤ i.index with
  | none => exact absurd hmissing (by simpa using List.find?_eq_none.1 hbad i hi)
  | some bad =>
      refine ⟨bad.index, ?_⟩
      simp only [applyTo, checkBase, if_pos hbase, hbad]

/-- With one instruction a line a patch may follow them in any order. -/
theorem applyTo_perm (base : Digest) {ps qs : List LinePatch} (hperm : ps.Perm qs)
    (hnodup : (ps.map LinePatch.index).Nodup) (d : Document) :
    SameOutcome ((⟨base, ps⟩ : Patch).applyTo d) ((⟨base, qs⟩ : Patch).applyTo d) := by
  by_cases hbase : base = d.digest
  · by_cases hrange : ∀ i ∈ ps, i.index < d.size
    · have hps := (applyTo_eq_ok_iff ⟨base, ps⟩ d _).2 ⟨hbase, hrange, rfl⟩
      have hqs := (applyTo_eq_ok_iff ⟨base, qs⟩ d _).2
        ⟨hbase, fun i hi => hrange i (hperm.mem_iff.2 hi), rfl⟩
      rw [hps, hqs, replaceLines_perm hperm hnodup]
      exact .same _
    · obtain ⟨i, hi, hmissing⟩ : ∃ i ∈ ps, d.size ≤ i.index := by simpa using hrange
      obtain ⟨j, hps⟩ := applyTo_of_missing (p := ⟨base, ps⟩) hbase hi hmissing
      obtain ⟨k, hqs⟩ :=
        applyTo_of_missing (p := ⟨base, qs⟩) hbase (hperm.mem_iff.1 hi) hmissing
      rw [hps, hqs]
      exact .missing j k d.size
  · rw [applyTo_of_base_ne hbase, applyTo_of_base_ne hbase]
    exact .same _

/-- In order, a patch does not depend on how its instructions were listed. -/
theorem InOrder.orderFree {p : Patch} (h : p.InOrder) : p.OrderFree := by
  constructor
  · exact fun instructions hperm => ofList_perm h hperm
  · intro instructions hperm d
    have hnodup : (instructions.map LinePatch.index).Nodup :=
      (hperm.map LinePatch.index).nodup_iff.2 h.nodup
    exact applyTo_perm p.base hperm hnodup d

end Patch

/-! ### Instructions that are left out -/

/-- An instruction that changes something in every one of some documents. -/
def LinePatch.ChangesAll (i : LinePatch) (docs : List Document) : Prop :=
  ∀ d ∈ docs, d.line? i.index ≠ some i.text

instance (i : LinePatch) (docs : List Document) : Decidable (i.ChangesAll docs) :=
  inferInstanceAs (Decidable (∀ d ∈ docs, d.line? i.index ≠ some i.text))

theorem LinePatch.changesAll_cons {i : LinePatch} {d : Document} {docs : List Document} :
    i.ChangesAll (d :: docs) ↔ d.line? i.index ≠ some i.text ∧ i.ChangesAll docs :=
  List.forall_mem_cons

namespace Patch

/-- Drop the instructions that change nothing in some document, for one document after another. -/
def retainAll (p : Patch) (docs : List Document) : Patch := docs.foldl retainChanged p

/-- Those instructions are left that change something in every one of the documents. -/
theorem instructions_retainAll (p : Patch) (docs : List Document) :
    (p.retainAll docs).instructions = p.instructions.filter fun i => i.ChangesAll docs := by
  induction docs generalizing p with
  | nil => simp [retainAll, LinePatch.ChangesAll]
  | cons d docs ih =>
      have hnext : p.retainAll (d :: docs) = (p.retainChanged d).retainAll docs := rfl
      rw [hnext, ih, retainChanged, List.filter_filter]
      refine List.filter_congr fun i _ => ?_
      rw [Bool.eq_iff_iff, Bool.and_eq_true]
      simp only [decide_eq_true_eq, LinePatch.changesAll_cons]
      exact and_comm

/-- What is left of a patch is in order exactly if those instructions were that are left. -/
theorem inOrder_retainAll_iff (p : Patch) (docs : List Document) :
    (p.retainAll docs).InOrder ↔ p.instructions.Pairwise fun a b =>
      a.ChangesAll docs → b.ChangesAll docs → a.index < b.index := by
  rw [InOrder, instructions_retainAll, List.pairwise_filter]
  simp only [decide_eq_true_eq]

/-- Dropping instructions keeps the others in order. -/
theorem InOrder.retainAll {p : Patch} (h : p.InOrder) (docs : List Document) :
    (p.retainAll docs).InOrder :=
  (inOrder_retainAll_iff p docs).2 (h.imp fun hlt _ _ => hlt)

/-! ### Patches and where they come from -/

/-- Where a patch can come from. -/
inductive Origin where
  /-- It is made of instructions, listed in any order. -/
  | listed (base : Digest) (instructions : List LinePatch)
    (fit : ∀ i ∈ instructions, i.index < 18446744073709551616)
  | nothing (base : Digest)
  /-- It is read from a JSON form. -/
  | decoded (form : Json)

def Origin.patch? : Origin → Option Patch
  | listed base instructions _ => some (ofList base instructions)
  | nothing base => some (empty base)
  | decoded form => ofJson? form

/-- No origin gives an index that is not a word. -/
theorem Origin.indicesFit {origin : Origin} {given : Patch} (h : origin.patch? = some given) :
    given.IndicesFit := by
  cases origin with
  | listed base instructions fit =>
      cases h
      intro i hi
      have hmem := (dropRepeats_sublist none (sortByIndex instructions)).subset hi
      exact fit i ((sortByIndex_perm instructions).mem_iff.1 hmem)
  | nothing base =>
      cases h
      exact fun i hi => absurd hi (by simp [empty])
  | decoded form => exact (exists_form_iff given).1 ⟨form, h⟩

theorem IndicesFit.retainAll {p : Patch} (h : p.IndicesFit) (docs : List Document) :
    (p.retainAll docs).IndicesFit := by
  intro i hi
  rw [instructions_retainAll] at hi
  exact h i (List.mem_of_mem_filter hi)

/-- A patch from any origin, also after instructions that change nothing were dropped, is in order
exactly if it was not decoded, or if those of the decoded instructions that are left were in order.
In order, its range has the lines of all instructions, or no line if one of them is for the greatest
index, and it does not matter in which order the instructions are. -/
theorem order_of_obtained (origin : Origin) (docs : List Document) {given : Patch}
    (h : origin.patch? = some given) :
    let left := given.retainAll docs
    (left.InOrder ↔
      ∀ form, origin = .decoded form → given.instructions.Pairwise fun a b =>
        a.ChangesAll docs → b.ChangesAll docs → a.index < b.index) ∧
    (left.InOrder →
      ((∀ i ∈ left.instructions, i.index ≠ lastIndex) →
          ∀ i ∈ left.instructions, left.Covers i.index) ∧
        ((∃ i ∈ left.instructions, i.index = lastIndex) → ∀ index, ¬ left.Covers index) ∧
        left.OrderFree) := by
  intro left
  have hfit : left.IndicesFit := (Origin.indicesFit h).retainAll docs
  refine ⟨?_, fun hordered => ⟨fun hbelow i hi => hordered.covers hbelow hfit hi, ?_,
    hordered.orderFree⟩⟩
  · cases origin with
    | listed base instructions fit =>
        cases h
        exact ⟨fun _ form hform => absurd hform (by simp),
          fun _ => (inOrder_ofList base instructions).retainAll docs⟩
    | nothing base =>
        cases h
        exact ⟨fun _ form hform => absurd hform (by simp),
          fun _ => (inOrder_empty base).retainAll docs⟩
    | decoded form =>
        rw [inOrder_retainAll_iff]
        exact ⟨fun hpairwise _ _ => hpairwise, fun hall => hall form rfl⟩
  · rintro ⟨i, hi, hgreatest⟩ index
    exact hordered.not_covers hfit hi hgreatest index

/-- The range from the greatest index to 0. -/
example (base : Digest) :
    (ofList base [⟨lastIndex, "x"⟩]).lineRange? = some (18446744073709551615, 0) := by
  rfl

/-- A decoded patch with two instructions for one line, of which one changes nothing: it is in order
once that one is dropped. -/
theorem retained_in_order :
    let d := Document.ofLines ["a", "b", "c"]
    let given : Patch := ⟨d.digest, [⟨2, "c"⟩, ⟨1, "B"⟩, ⟨2, "C"⟩]⟩
    ofJson? given.toJson = some given ∧ ¬ given.InOrder ∧ (given.retainAll [d]).InOrder ∧
      (∀ i ∈ (given.retainAll [d]).instructions, (given.retainAll [d]).Covers i.index) ∧
      (given.retainAll [d]).OrderFree := by
  intro d given
  have hread : ofJson? given.toJson = some given := ofJson?_toJson (by simp [given])
  obtain ⟨hiff, hconsequences⟩ := order_of_obtained (.decoded given.toJson) [d] hread
  have hretained : (given.retainAll [d]).InOrder := hiff.2 fun _ _ => by decide
  obtain ⟨hcovers, _, hfree⟩ := hconsequences hretained
  exact ⟨hread, by decide, hretained, hcovers (by decide), hfree⟩

/-- A decoded patch that is out of order: its range has none of the lines, and the result depends on
which of two instructions for a line comes last. -/
theorem decoded_out_of_order :
    let d := Document.ofLines ["a", "b", "c"]
    let given : Patch := ⟨d.digest, [⟨2, "C"⟩, ⟨1, "A"⟩, ⟨1, "B"⟩]⟩
    ofJson? given.toJson = some given ∧ ¬ given.InOrder ∧
      (∀ i ∈ given.instructions, ¬ given.Covers i.index) ∧
      given.applyTo d = .ok (d.withLines ["a", "B", "C"]) ∧
      (⟨given.base, given.instructions.reverse⟩ : Patch).applyTo d =
        .ok (d.withLines ["a", "A", "C"]) := by
  intro d given
  have hrange : given.lineRange? = some (2, 2) := rfl
  refine ⟨ofJson?_toJson (by simp [given]), by decide, ?_, ?_, ?_⟩
  · rintro i _ ⟨first, last, hlines, hfirst, hlast⟩
    cases hrange.symm.trans hlines
    omega
  · exact (applyTo_eq_ok_iff given d _).2 ⟨rfl, by decide, rfl⟩
  · exact (applyTo_eq_ok_iff _ d _).2 ⟨rfl, by decide, rfl⟩

end Patch

end AnnotatedEnv
