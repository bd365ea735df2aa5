/-
Module: AnnotatedEnv.Patch
Purpose: Replacing whole lines of the one document a patch was made for.
Main exports: LinePatch, Patch, Patch.ofList, Patch.applyTo, Patch.retainChanged, PatchError,
  Patch.applyTo_eq_ok_iff
A patch names its document by the digest, so it never lands on changed content, and since it only
replaces lines, every line keeps its index.
-/
import AnnotatedEnv.Document

namespace AnnotatedEnv

/-- The new text of one line. -/
structure LinePatch where
  index : Nat
  text : String
  deriving DecidableEq, Repr

/-- Replacements for the document with digest `base`. -/
structure Patch where
  base : Digest
  instructions : List LinePatch
  deriving DecidableEq, Repr

inductive PatchError where
  /-- The document is not the one the patch was made for. -/
  | baseMismatch (expected actual : Digest)
  /-- The document has no line with this index. -/
  | lineOutOfRange (index size : Nat)
  deriving DecidableEq, Repr

def PatchError.message : PatchError → String
  | baseMismatch expected actual =>
    "base hash mismatch: expected " ++ expected.render ++ ", got " ++ actual.render
  | lineOutOfRange index size =>
    "line " ++ toString index ++ " out of range for document of " ++ toString size ++ " lines"

namespace Patch

/-! ### Making patches -/

/-- Put an instruction behind those with a smaller or equal index. -/
def insertSorted (p : LinePatch) : List LinePatch → List LinePatch
  | [] => [p]
  | q :: qs => if p.index ≤ q.index then p :: q :: qs else q :: insertSorted p qs

/-- Sort by index; instructions with equal indices keep their order. -/
def sortByIndex : List LinePatch → List LinePatch
  | [] => []
  | p :: ps => insertSorted p (sortByIndex ps)

/-- Keep the first of neighbours with equal indices. `last` is the index before. -/
def dropRepeats : (last : Option Nat) → List LinePatch → List LinePatch
  | _, [] => []
  | last, p :: ps =>
    if last = some p.index then dropRepeats last ps else p :: dropRepeats (some p.index) ps

/-- The patch of some instructions in any order; of two for one line the first counts. -/
def ofList (base : Digest) (instructions : List LinePatch) : Patch :=
  ⟨base, dropRepeats none (sortByIndex instructions)⟩

def empty (base : Digest) : Patch := ⟨base, []⟩

def size (p : Patch) : Nat := p.instructions.length

def isEmpty (p : Patch) : Bool := p.instructions.isEmpty

/-- From the first index to just behind the last one. Indices are words of sixty-four bits, so 0
comes behind the greatest of them; where sums are checked for overflow there is no answer then. -/
def lineRange? (p : Patch) : Option (Nat × Nat) :=
  match p.instructions.head?, p.instructions.getLast? with
  | some first, some last => some (first.index, (last.index + 1) % 18446744073709551616)
  | _, _ => none

/-- Drop the instructions that leave their line as it is. -/
def retainChanged (p : Patch) (d : Document) : Patch :=
  { p with instructions := p.instructions.filter fun i => d.line? i.index ≠ some i.text }

/-! ### Applying patches -/

/-- Whether the patch was made for the document. -/
def checkBase (p : Patch) (d : Document) : Except PatchError Unit :=
  if p.base = d.digest then .ok () else .error (.baseMismatch p.base d.digest)

/-- Replace the lines one instruction after another. -/
def replaceLines (lines : List String) (instructions : List LinePatch) : List String :=
  instructions.foldl (fun lines p => lines.set p.index p.text) lines

/-- Apply a patch. The base is checked first, then the range of every instruction, so a failure
changes nothing. -/
def applyTo (p : Patch) (d : Document) : Except PatchError Document :=
  match p.checkBase d with
  | .error e => .error e
  | .ok () =>
    match p.instructions.find? fun i => d.size ≤ i.index with
    | some bad => .error (.lineOutOfRange bad.index d.size)
    | none => .ok (d.withLines (replaceLines d.lines p.instructions))

/-- Replacing lines keeps their number. -/
theorem length_replaceLines (lines : List String) (instructions : List LinePatch) :
    (replaceLines lines instructions).length = lines.length := by
  induction instructions generalizing lines with
  | nil => rfl
  | cons p ps ih => exact (ih (lines.set p.index p.text)).trans List.length_set

/-- A patch applies exactly to the document it was made for, if all its lines exist. -/
theorem applyTo_eq_ok_iff (p : Patch) (d e : Document) :
    p.applyTo d = .ok e ↔
      p.base = d.digest ∧ (∀ i ∈ p.instructions, i.index < d.size) ∧
        e = d.withLines (replaceLines d.lines p.instructions) := by
  unfold applyTo checkBase
  by_cases h : p.base = d.digest
  · simp only [if_pos h]
    cases hf : p.instructions.find? fun i => d.size ≤ i.index with
    | some bad =>
      have hb := List.find?_some hf
      have hm := List.mem_of_find?_eq_some hf
      simp only [decide_eq_true_eq] at hb
      constructor
      · intro he
        cases he
      · intro ⟨_, hall, _⟩
        exact absurd (hall bad hm) (Nat.not_lt.2 hb)
    | none =>
      have hall : ∀ i ∈ p.instructions, i.index < d.size := by
        intro i hi
        have := List.find?_eq_none.1 hf i hi
        simpa using this
      constructor
      · intro he
        cases he
        exact ⟨h, hall, rfl⟩
      · intro ⟨_, _, he⟩
        rw [he]
  · simp only [if_neg h]
    constructor
    · intro he
      cases he
    · intro ⟨hb, _⟩
      exact absurd hb h

end Patch

end AnnotatedEnv
