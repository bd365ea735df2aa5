/-
Module: AnnotatedEnv.Proofs.Course
Purpose: Overlapping calls on a host that others change meanwhile, and the lines that are shown in
  their course.
Main exports: Happening, Overlap.course, Overlap.Shown, Overlap.noCollision_of_shownLines,
  Overlap.exclusive_course, Session.applyTo_patchToSend
-/
import Mathlib.Data.List.Infix
import AnnotatedEnv.Proofs.History
import AnnotatedEnv.Proofs.Turn

namespace AnnotatedEnv

/-! ### Courses -/

/-- What may happen while calls overlap. -/
inductive Happening where
  | poll (i : Nat)
  /-- Somebody else changes the host: its lines, or what fails and what takes time. -/
  | outside (change : MemoryHost → MemoryHost)

def Call.lines? : Call → Option (List String)
  | externalChange lines => some lines
  | _ => none

theorem Call.eq_of_lines? {c : Call} {lines : List String} (h : c.lines? = some lines) :
    c = .externalChange lines := by
  cases c with
  | externalChange told => rw [Option.some.inj h]
  | override request => exact absurd h (by simp [lines?])
  | reload => exact absurd h (by simp [lines?])

namespace Overlap

def happen (o : Overlap (Paced MemoryHost)) : Happening → Overlap (Paced MemoryHost)
  | .poll i => o.poll i
  | .outside change => { o with host := { o.host with host := change o.host.host } }

/-- Let some things happen one after another. -/
def course (o : Overlap (Paced MemoryHost)) (hs : List Happening) : Overlap (Paced MemoryHost) :=
  hs.foldl happen o

theorem course_concat (o : Overlap (Paced MemoryHost)) (hs : List Happening) (h : Happening) :
    o.course (hs ++ [h]) = (o.course hs).happen h := by
  simp [course]

/-- The lines that the host holds between the happenings, and those that calls tell of. -/
inductive Shown (o : Overlap (Paced MemoryHost)) (calls : List Call) (hs : List Happening) :
    List String → Prop where
  | held (done : List Happening) (past : done <+: hs) :
      Shown o calls hs (o.course done).host.host.buffer
  | told (lines : List String) (call : .externalChange lines ∈ calls) : Shown o calls hs lines

/-- The shown lines, one after another. -/
def shownLines (o : Overlap (Paced MemoryHost)) (calls : List Call) (hs : List Happening) :
    List (List String) :=
  hs.inits.map (fun done => (o.course done).host.host.buffer) ++ calls.filterMap Call.lines?

/-- The shown lines are finitely many, and they can be listed. -/
theorem shown_iff_mem {o : Overlap (Paced MemoryHost)} {calls : List Call} {hs : List Happening}
    {lines : List String} : Shown o calls hs lines ↔ lines ∈ o.shownLines calls hs := by
  rw [shownLines, List.mem_append, List.mem_map, List.mem_filterMap]
  constructor
  · rintro (⟨done, past⟩ | ⟨lines, call⟩)
    · exact Or.inl ⟨done, (List.mem_inits done hs).2 past, rfl⟩
    · exact Or.inr ⟨_, call, rfl⟩
  · rintro (⟨done, past, rfl⟩ | ⟨c, call, hlines⟩)
    · exact .held done ((List.mem_inits done hs).1 past)
    · obtain rfl := Call.eq_of_lines? hlines
      exact .told lines call

/-- Whether digests collide in a course can be computed. -/
theorem noCollision_of_shownLines {o : Overlap (Paced MemoryHost)} {calls : List Call}
    {hs : List Happening}
    (h : ∀ lines ∈ o.shownLines calls hs, ∀ lines' ∈ o.shownLines calls hs,
      Digest.ofLines lines = Digest.ofLines lines' → lines = lines') :
    NoCollision (Shown o calls hs) := by
  intro lines lines' hshown hshown'
  exact h lines (shown_iff_mem.1 hshown) lines' (shown_iff_mem.1 hshown')

/-- Whatever others do to the host, the state has at most one holder. -/
theorem exclusive_course {o : Overlap (Paced MemoryHost)} (h : Exclusive o) (hs : List Happening) :
    Exclusive (o.course hs) := by
  induction hs using List.reverseRecOn with
  | nil => exact h
  | append_singleton hs happening ih =>
      rw [course_concat]
      cases happening with
      | poll i => exact exclusive_poll ih i
      | outside change => exact ih

end Overlap

/-! ### The patch that is sent -/

/-- A host takes patches alike that its buffer takes alike. -/
theorem MemoryHost.apply_congr {patch patch' : Patch} {host : MemoryHost}
    (h : patch.applyTo (.ofLines host.buffer) = patch'.applyTo (.ofLines host.buffer)) :
    Host.apply patch host = Host.apply patch' host := by
  change MemoryHost.apply patch host = MemoryHost.apply patch' host
  rw [MemoryHost.apply, MemoryHost.apply, h]

namespace Session

variable {m : Model} {effective : Settings} {request : Request} {edit : Edit}
  {shown : List String → Prop}

/-- Nobody who holds shown lines can tell the patch that is sent from the full one. -/
theorem applyTo_patchToSend (options : SessionOptions)
    (haccepted : m.edit effective request = .ok edit) (hdistinct : NoCollision shown)
    (hknown : shown m.document.lines) {lines : List String} (hlines : shown lines) :
    (patchToSend options m edit).applyTo (.ofLines lines) =
      edit.patch.applyTo (.ofLines lines) := by
  obtain ⟨⟨first, texts, hpatch⟩, _⟩ := Model.numbered_of_edit haccepted
  rw [patchToSend]
  split
  · by_cases hbase : Digest.ofLines m.document.lines = Digest.ofLines lines
    · have hsame := hdistinct m.document.lines lines hknown hlines hbase
      have hretain : edit.patch.retainChanged m.document =
          edit.patch.retainChanged (.ofLines lines) := by
        simp only [Patch.retainChanged, Document.line?, hsame]
        rfl
      rw [hretain]
      apply Patch.applyTo_retainChanged
      rw [hpatch]
      exact Patch.nodup_numbered first texts
    · have hne : edit.patch.base ≠ (Document.ofLines lines).digest := by
        rw [hpatch]
        exact fun heq => hbase (m.document.digest_eq.symm.trans heq)
      rw [Patch.applyTo_of_base_ne hne, Patch.applyTo_of_base_ne (p := Patch.retainChanged _ _) hne]
      rfl
  · rfl

end Session

end AnnotatedEnv
