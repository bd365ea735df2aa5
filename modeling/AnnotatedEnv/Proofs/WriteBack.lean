/-
Module: AnnotatedEnv.Proofs.WriteBack
Purpose: Which lines writing a configuration back replaces, and by what.
Main exports: Entry.line, Entry.HeldBy, Document.Assigns, WriteRange, Model.numbered_of_patchFor,
  Model.writeRange_of_patchFor, Model.edit_eq_ok, Model.numbered_of_edit, WriteRange.applyTo,
  Model.line_of_edit
-/
import Mathlib.Data.List.Forall2
import AnnotatedEnv.Proofs.Assignment
import AnnotatedEnv.Proofs.Override
import AnnotatedEnv.Proofs.Patch
import AnnotatedEnv.WriteBack

namespace AnnotatedEnv

open TemplateBlock (assignments)

/-! ### Entries and lines -/

abbrev Entry := String × String

namespace Entry

/-- The line that an entry is written as. -/
def line (e : Entry) : String := Assignment.render e.1 e.2

/-- A line that assigns the key of an entry, whatever the value. -/
def HeldBy (e : Entry) (text : String) : Prop :=
  ∃ value, Assignment.parse? text = some ⟨e.1, value⟩

theorem isKey_of_heldBy {e : Entry} {text : String} (h : e.HeldBy text) :
    Assignment.IsKey e.1 := by
  rcases h with ⟨value, hparse⟩
  exact Assignment.isKey_of_parse? hparse

/-- The line of an entry is read as the entry. -/
theorem parse?_line {e : Entry} (h : Assignment.IsKey e.1) :
    Assignment.parse? e.line = some ⟨e.1, e.2⟩ :=
  Assignment.parse?_render h e.2

end Entry

/-- The document has a line at the index that assigns the key, whatever the value. -/
def Document.Assigns (d : Document) (index : Nat) (key : String) : Prop :=
  ∃ text value, d.line? index = some text ∧ Assignment.parse? text = some ⟨key, value⟩

theorem TemplateBlock.assignments_append (xs ys : List String) :
    assignments (xs ++ ys) = assignments xs ++ assignments ys := by
  simp [assignments]

theorem TemplateBlock.length_assignments_le (texts : List String) :
    (assignments texts).length ≤ texts.length := by
  rw [assignments, List.length_map]
  exact List.length_filterMap_le _ _

/-! ### The range of a patch -/

/-- The lines that writing a configuration back replaces, with what stands around them. -/
structure WriteRange (d : Document) (options : LoadOptions) (effective : Settings) where
  front : List String
  tagLine : String
  /-- The lines that hold the keys. -/
  old : List String
  back : List String
  lines_eq : d.lines = front ++ tagLine :: (old ++ back)
  opens_tagLine : opens (d.targetKind options) tagLine = true
  /-- The tag is the first one of its kind. -/
  opens_front : ∀ line ∈ front, opens (d.targetKind options) line = false
  heldBy : List.Forall₂ (fun text e => Entry.HeldBy e text) old effective.entries
  /-- The body assigns no key twice. -/
  assignments_le : (assignments (bodyLines (old ++ back))).length ≤ effective.size

def WriteRange.before {d : Document} {options : LoadOptions} {effective : Settings}
    (range : WriteRange d options effective) : List String :=
  range.front ++ [range.tagLine]

namespace Model

/-- A line holds a key exactly if it assigns it. -/
theorem holdsKey_iff (m : Model) (index : Nat) (key : String) :
    m.holdsKey index key = true ↔ m.document.Assigns index key := by
  constructor
  · intro h
    rw [holdsKey] at h
    split at h
    · next a hparse =>
      obtain ⟨text, hline, htext⟩ := Option.bind_eq_some_iff.1 hparse
      obtain rfl : a.key = key := by simpa using h
      exact ⟨text, a.value, hline, htext⟩
    · exact absurd h (by simp)
  · rintro ⟨text, value, hline, hparse⟩
    simp [holdsKey, hline, hparse]

theorem heldBy_of_holdsKey {m : Model} {front rest : List String}
    (hlines : m.document.lines = front ++ rest) {e : Entry}
    (h : m.holdsKey front.length e.1 = true) :
    ∃ text texts, rest = text :: texts ∧ e.HeldBy text := by
  obtain ⟨text, value, hline, hparse⟩ := (m.holdsKey_iff front.length e.1).1 h
  rw [Document.line?, hlines, List.getElem?_append_right (Nat.le_refl _), Nat.sub_self,
    ← List.head?_eq_getElem?] at hline
  obtain ⟨texts, rfl⟩ := List.head?_eq_some_iff.1 hline
  exact ⟨text, texts, rfl, value, hparse⟩

/-- The first entry has its line, and the others have theirs behind it. -/
theorem instructionsFrom_cons_eq_ok {m : Model} {line : Nat} {e : Entry} {entries : List Entry}
    {instructions : List LinePatch}
    (h : m.instructionsFrom line (e :: entries) = .ok instructions) :
    m.holdsKey line e.1 = true ∧ ∃ behind, m.instructionsFrom (line + 1) entries = .ok behind ∧
      instructions = ⟨line, e.line⟩ :: behind := by
  rcases e with ⟨key, value⟩
  simp only [instructionsFrom] at h
  split at h
  · next hholds =>
    cases hrest : m.instructionsFrom (line + 1) entries with
    | error e => rw [hrest] at h; exact absurd h (by simp [Except.map])
    | ok behind =>
        rw [hrest] at h
        cases h
        exact ⟨hholds, behind, rfl, rfl⟩
  · exact absurd h (by simp)

/-- Instructions are given exactly for lines that hold the keys in order. -/
theorem instructionsFrom_eq_ok {m : Model} {entries : List Entry} {front rest : List String}
    (hlines : m.document.lines = front ++ rest) {instructions : List LinePatch}
    (h : m.instructionsFrom front.length entries = .ok instructions) :
    ∃ old back, rest = old ++ back ∧ List.Forall₂ (fun text e => Entry.HeldBy e text) old entries ∧
      instructions = LinePatch.numbered front.length (entries.map Entry.line) := by
  induction entries generalizing front rest instructions with
  | nil =>
      simp only [instructionsFrom, Except.ok.injEq] at h
      exact ⟨[], rest, rfl, .nil, h.symm⟩
  | cons e entries ih =>
      obtain ⟨hholds, behind, hbehind, rfl⟩ := instructionsFrom_cons_eq_ok h
      obtain ⟨text, texts, rfl, hheld⟩ := heldBy_of_holdsKey hlines hholds
      have hnext : m.document.lines = (front ++ [text]) ++ texts := by rw [hlines]; simp
      have hlength : front.length + 1 = (front ++ [text]).length := by simp
      rw [hlength] at hbehind
      obtain ⟨old, back, rfl, hall, rfl⟩ := ih hnext hbehind
      refine ⟨text :: old, back, rfl, .cons hheld hall, ?_⟩
      rw [List.map_cons, LinePatch.numbered, hlength]

theorem lt_size_of_holdsKey {m : Model} {line : Nat} {key : String}
    (h : m.holdsKey line key = true) : line < m.document.size := by
  obtain ⟨text, _, hline, _⟩ := (m.holdsKey_iff line key).1 h
  exact (List.getElem?_eq_some_iff.1 hline).1

/-- Instructions are for neighbouring lines that the document has. -/
theorem numbered_of_instructionsFrom {m : Model} {line : Nat} {entries : List Entry}
    {instructions : List LinePatch} (h : m.instructionsFrom line entries = .ok instructions) :
    instructions = LinePatch.numbered line (entries.map Entry.line) ∧
      ∀ i ∈ instructions, i.index < m.document.size := by
  induction entries generalizing line instructions with
  | nil =>
      simp only [instructionsFrom, Except.ok.injEq] at h
      rw [← h]
      exact ⟨rfl, by simp⟩
  | cons e entries ih =>
      obtain ⟨hholds, behind, hbehind, rfl⟩ := instructionsFrom_cons_eq_ok h
      obtain ⟨rfl, hrange⟩ := ih hbehind
      exact ⟨rfl, List.forall_mem_cons.2 ⟨lt_size_of_holdsKey hholds, hrange⟩⟩

/-- The patch of a configuration is for neighbouring lines of the model's document, whatever the
model was read from. -/
theorem numbered_of_patchFor {m : Model} {effective : Settings} {patch : Patch}
    (h : m.patchFor effective = .ok patch) :
    (∃ first texts, patch = ⟨m.document.digest, LinePatch.numbered first texts⟩) ∧
      ∀ i ∈ patch.instructions, i.index < m.document.size := by
  simp only [patchFor] at h
  split at h
  · cases h
    exact ⟨⟨0, [], rfl⟩, by simp [Patch.empty]⟩
  · split at h
    · exact absurd h (by simp)
    · next target _ =>
      split at h
      · exact absurd h (by simp)
      · next instructions hinstructions =>
        split at h
        · exact absurd h (by simp)
        · obtain ⟨rfl, hrange⟩ := numbered_of_instructionsFrom hinstructions
          rw [Patch.ofList_numbered] at h
          cases h
          exact ⟨⟨_, _, rfl⟩, hrange⟩

/-- A configuration that can be written back has its range, and the patch puts the entries there,
one a line. -/
theorem writeRange_of_patchFor {d : Document} {options : LoadOptions} {effective : Settings}
    {patch : Patch} (hne : effective.isEmpty = false)
    (h : (ofDocument d options).patchFor effective = .ok patch) :
    ∃ range : WriteRange d options effective,
      (∃ target, (ofDocument d options).target = some target ∧
        target.kind = d.targetKind options ∧ target.firstLine = range.before.length) ∧
      patch = ⟨d.digest, LinePatch.numbered range.before.length
        (effective.entries.map Entry.line)⟩ := by
  simp only [patchFor, hne, Bool.false_eq_true, if_false, document_ofDocument] at h
  split at h
  · exact absurd h (by simp)
  · next target htarget =>
    split at h
    · exact absurd h (by simp)
    · next instructions hinstructions =>
      split at h
      · exact absurd h (by simp)
      · next hsize =>
        obtain ⟨block, hblock, rfl⟩ := block_of_target htarget
        obtain ⟨front, tagLine, rest, hlines, hfront, htag, rfl⟩ := Document.append_of_block? hblock
        have hbefore : (ofDocument d options).document.lines = (front ++ [tagLine]) ++ rest := by
          rw [document_ofDocument, hlines]
          simp
        have hfirst : front.length + 1 = (front ++ [tagLine]).length := by simp
        simp only [TemplateBlock.target, PatchTarget.firstLine, hfirst] at hinstructions
        obtain ⟨old, back, rfl, hheld, rfl⟩ := instructionsFrom_eq_ok hbefore hinstructions
        refine ⟨⟨front, tagLine, old, back, hlines, htag, hfront, hheld, Nat.le_of_not_lt hsize⟩,
          ⟨_, htarget, rfl, hfirst⟩, ?_⟩
        rw [Patch.ofList_numbered] at h
        exact (Except.ok.inj h).symm

/-! ### Accepted requests -/

/-- An edit holds what the request computes, and unless nothing changes the patch that writes it. -/
theorem edit_eq_ok {m : Model} {effective : Settings} {request : Request} {edit : Edit}
    (h : m.edit effective request = .ok edit) :
    request.compute m effective = .ok ⟨edit.effective, edit.changes⟩ ∧
      (edit.isNoop = true → edit.patch = .empty m.document.digest) ∧
      (edit.isNoop = false → m.patchFor edit.effective = .ok edit.patch) := by
  simp only [Model.edit] at h
  split at h
  · exact absurd h (by simp)
  · next outcome hcompute =>
    split at h
    · next hnoop =>
      cases h
      refine ⟨hcompute, fun _ => rfl, fun hno => ?_⟩
      exact absurd (hno.symm.trans hnoop) (by simp)
    · next hnoop =>
      split at h
      · exact absurd h (by simp)
      · next patch hpatch =>
        cases h
        exact ⟨hcompute, fun hno => absurd hno hnoop, fun _ => hpatch⟩

theorem effective_of_edit {m : Model} {effective : Settings} {request : Request} {edit : Edit}
    (h : m.edit effective request = .ok edit) :
    edit.effective = effective.replaceAll edit.changes.entries :=
  congrArg Outcome.effective (Request.changes_of_compute (edit_eq_ok h).1).1

/-- Without changes an edit leaves the configuration as it was. -/
theorem effective_of_noop {m : Model} {effective : Settings} {request : Request} {edit : Edit}
    (h : m.edit effective request = .ok edit) (hnoop : edit.isNoop = true) :
    edit.effective = effective := by
  have hnone : edit.changes.entries = [] := by
    simpa [Edit.isNoop, OrderedMap.isEmpty] using hnoop
  rw [effective_of_edit h, hnone]
  rfl

/-- An edit leaves the keys alone that it does not change. -/
theorem get?_effective_of_edit {m : Model} {effective : Settings} {request : Request} {edit : Edit}
    (h : m.edit effective request = .ok edit) {key : String} (hkey : key ∉ edit.changes.keys) :
    edit.effective.get? key = effective.get? key := by
  have hunchanged : edit.changes.get? key = none := (edit.changes.get?_eq_none_iff key).2 hkey
  have hvalue : edit.effective.get? key =
      (edit.changes.get? key).or (effective.get? key) :=
    Request.get?_of_compute (edit_eq_ok h).1 key
  rw [hvalue, hunchanged, Option.none_or]

/-- An edit is known by its parts, its patch by the instructions. -/
theorem exists_edit {m : Model} {effective effective' changes : Settings} {request : Request}
    {instructions : List LinePatch}
    (h : (m.edit effective request).map (fun e => (e.effective, e.changes, e.patch.instructions)) =
      .ok (effective', changes, instructions)) :
    ∃ edit, m.edit effective request = .ok edit ∧ edit.effective = effective' ∧
      edit.changes = changes ∧ edit.patch.instructions = instructions := by
  cases hedit : m.edit effective request with
  | error e => rw [hedit] at h; exact absurd h (by simp [Except.map])
  | ok edit =>
      rw [hedit] at h
      simp only [Except.map, Except.ok.injEq, Prod.mk.injEq] at h
      exact ⟨edit, rfl, h.1, h.2.1, h.2.2⟩

/-- The patch of an edit is for neighbouring lines of the model's document. -/
theorem numbered_of_edit {m : Model} {effective : Settings} {request : Request} {edit : Edit}
    (h : m.edit effective request = .ok edit) :
    (∃ first texts, edit.patch = ⟨m.document.digest, LinePatch.numbered first texts⟩) ∧
      ∀ i ∈ edit.patch.instructions, i.index < m.document.size := by
  obtain ⟨_, hnoop, hpatch⟩ := edit_eq_ok h
  cases hchanged : edit.isNoop with
  | true =>
      rw [hnoop hchanged]
      exact ⟨⟨0, [], rfl⟩, by simp [Patch.empty]⟩
  | false => exact numbered_of_patchFor (hpatch hchanged)

/-- The patch of an edit is for the document that was edited. -/
theorem base_of_edit {m : Model} {effective : Settings} {request : Request} {edit : Edit}
    (h : m.edit effective request = .ok edit) : edit.patch.base = m.document.digest := by
  obtain ⟨⟨first, texts, hpatch⟩, _⟩ := numbered_of_edit h
  rw [hpatch]

/-- The patch of an edit applies to the document the edit was made on. -/
theorem applyTo_of_edit {m : Model} {effective : Settings} {request : Request} {edit : Edit}
    (h : m.edit effective request = .ok edit) :
    edit.patch.applyTo m.document =
      .ok (m.document.withLines
        (Patch.replaceLines m.document.lines edit.patch.instructions)) := by
  rw [Patch.applyTo_eq_ok_iff]
  exact ⟨base_of_edit h, (numbered_of_edit h).2, rfl⟩

/-- A request that changes something leaves a configuration with keys. -/
theorem isEmpty_eq_false_of_changes {m : Model} {effective : Settings} {request : Request}
    {edit : Edit} (h : m.edit effective request = .ok edit) (hchanged : edit.isNoop = false) :
    edit.effective.isEmpty = false := by
  have hcompute := (edit_eq_ok h).1
  have hkeys := Request.keys_of_compute hcompute
  cases hchanges : edit.changes.entries with
  | nil => simp [Edit.isNoop, OrderedMap.isEmpty, hchanges] at hchanged
  | cons e es =>
      have hmem : e.1 ∈ edit.changes.keys := by simp [OrderedMap.keys, hchanges]
      have hkey : e.1 ∈ effective.keys := ((Request.changes_of_compute hcompute).2 e.1 hmem).1
      rw [← hkeys] at hkey
      cases hentries : edit.effective.entries with
      | nil => simp [OrderedMap.keys, hentries] at hkey
      | cons f fs => simp [OrderedMap.isEmpty, hentries]

end Model

namespace WriteRange

variable {d : Document} {options : LoadOptions} {effective : Settings}

theorem lines_eq_before (range : WriteRange d options effective) :
    d.lines = range.before ++ (range.old ++ range.back) := by
  rw [range.lines_eq, before]
  simp

theorem length_old (range : WriteRange d options effective) :
    range.old.length = effective.entries.length :=
  range.heldBy.length_eq

theorem length_lines (range : WriteRange d options effective) :
    (effective.entries.map Entry.line).length = range.old.length := by
  rw [List.length_map, range.length_old]

/-- The document once the entries stand in the range. -/
def written (range : WriteRange d options effective) : Document :=
  d.withLines (range.before ++ (effective.entries.map Entry.line ++ range.back))

/-- The patch of a range gives what the range is written as. -/
theorem applyTo (range : WriteRange d options effective) :
    (⟨d.digest, LinePatch.numbered range.before.length (effective.entries.map Entry.line)⟩ :
      Patch).applyTo d = .ok range.written :=
  Patch.applyTo_numbered range.lines_eq_before range.length_lines.symm

/-- Every key that is written back is the key of some line. -/
theorem isKey (range : WriteRange d options effective) {e : Entry} (he : e ∈ effective.entries) :
    Assignment.IsKey e.1 := by
  have hall : ∀ (old : List String) (es : List Entry),
      List.Forall₂ (fun text e => Entry.HeldBy e text) old es → ∀ e ∈ es, Assignment.IsKey e.1 := by
    intro old es h
    induction h with
    | nil => simp
    | cons hheld _ ih =>
        intro e he
        rcases List.mem_cons.1 he with rfl | he
        · exact Entry.isKey_of_heldBy hheld
        · exact ih e he
  exact hall _ _ range.heldBy e he

end WriteRange

end AnnotatedEnv
