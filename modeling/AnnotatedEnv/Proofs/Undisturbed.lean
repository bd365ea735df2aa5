/-
Module: AnnotatedEnv.Proofs.Undisturbed
Purpose: What a write leaves as it was when the lines that it replaces carry no tag or no marker,
  before and after.
Main exports: WriteRange.Untagged, WriteRange.Plain, WriteRange.groups_written,
  WriteRange.baseline_written, Loaded.diagnostics_ofDocument, PatchTarget.range,
  Model.edit_undisturbed
-/
import AnnotatedEnv.Proofs.LastWriter
import AnnotatedEnv.Proofs.ReadBack
import AnnotatedEnv.Proofs.Regroup

namespace AnnotatedEnv

open TemplateBlock (assignments)

namespace WriteRange

variable {d : Document} {options : LoadOptions} {effective : Settings}

/-! ### Lines without a tag -/

/-- No line of the range is a tag line, neither before nor after the write. -/
structure Untagged (range : WriteRange d options effective) : Prop where
  old : ∀ line ∈ range.old, isTagged line = false
  written : ∀ e ∈ effective.entries, isTagged (Entry.line e) = false

/-- What is written stands between the lines that stood around it. -/
theorem lines_written (range : WriteRange d options effective) :
    range.written.lines =
      range.front ++ range.tagLine :: (effective.entries.map Entry.line ++ range.back) := by
  rw [written, Document.withLines, Document.mk', before]
  simp

theorem Untagged.written_lines {range : WriteRange d options effective} (h : range.Untagged) :
    ∀ line ∈ effective.entries.map Entry.line, isTagged line = false :=
  List.forall_mem_map.2 h.written

/-- Only the group that the target names may change. -/
theorem groups_written {range : WriteRange d options effective} (h : range.Untagged)
    {kind : TagKind} (hne : kind ≠ d.targetKind options) :
    (Sections.ofLines range.written.lines).groups kind =
      (Sections.ofLines d.lines).groups kind := by
  obtain ⟨tag, htag, hkind⟩ := exists_tag_of_opens range.opens_tagLine
  have htagNe : tag.kind ≠ kind := fun heq => hne (heq.symm.trans hkind)
  rw [range.lines_written, range.lines_eq, Sections.groups_region_of_ne htag htagNe h.old,
    Sections.groups_region_of_ne htag htagNe h.written_lines, range.length_lines]

/-- Other blocks are as they were. -/
theorem block?_written_of_ne {range : WriteRange d options effective} (h : range.Untagged)
    {kind : TagKind} (hne : kind ≠ d.targetKind options) :
    range.written.block? kind = d.block? kind := by
  rw [Document.block?, Document.block?, groups_written h hne]

/-- The presets are as they were. -/
theorem modes_written {range : WriteRange d options effective} (h : range.Untagged) :
    (Model.ofDocument range.written options).modes = (Model.ofDocument d options).modes := by
  rw [Model.modes_ofDocument, Model.modes_ofDocument,
    groups_written h (d.mode_ne_targetKind options)]

/-- The constraints are as they were. -/
theorem constraints_written {range : WriteRange d options effective} (h : range.Untagged) :
    (Model.ofDocument range.written options).constraints =
      (Model.ofDocument d options).constraints := by
  rw [Model.constraints_ofDocument, Model.constraints_ofDocument,
    groups_written h (d.value_ne_targetKind options)]

/-- Writing over the overwriting block leaves the template alone. -/
theorem template_written {range : WriteRange d options effective} (h : range.Untagged)
    (hkind : d.targetKind options = .overwritten) :
    (Model.ofDocument range.written options).template = (Model.ofDocument d options).template := by
  have hne : TagKind.template ≠ d.targetKind options := by simp [hkind]
  rw [Model.template_ofDocument, Model.template_ofDocument, block?_written_of_ne h hne]

/-- Without a block to honour before the write there is none after it. -/
theorem honoured?_written {range : WriteRange d options effective} (h : range.Untagged)
    (hkind : d.targetKind options = .template) : range.written.honoured? options = none := by
  have hne : TagKind.overwritten ≠ d.targetKind options := by simp [hkind]
  have hnone := (Document.honoured?_eq_none_iff d options).2 hkind
  rwa [Document.honoured?, ← block?_written_of_ne h hne] at hnone

/-! ### Lines without a marker -/

/-- No line of the range carries a marker, neither before nor after the write. -/
structure Plain (range : WriteRange d options effective) : Prop where
  old : ∀ line ∈ range.old, isPlain line = true
  written : ∀ e ∈ effective.entries, isPlain (Entry.line e) = true

theorem Plain.untagged {range : WriteRange d options effective} (h : range.Plain) :
    range.Untagged where
  old line hline := isTagged_of_isPlain (h.old line hline)
  written e he := isTagged_of_isPlain (h.written e he)

theorem Plain.written_lines {range : WriteRange d options effective} (h : range.Plain) :
    ∀ line ∈ effective.entries.map Entry.line, isPlain line = true :=
  List.forall_mem_map.2 h.written

theorem length_assignments_old (range : WriteRange d options effective) :
    (assignments range.old).length = effective.size := by
  have hkeys := keys_assignments_of_heldBy range.heldBy_rows
  rw [range.fst_rows] at hkeys
  have hlength := congrArg List.length hkeys
  rw [List.length_map, List.length_map] at hlength
  rw [hlength, ← List.length_map Prod.snd, range.snd_rows]
  rfl

/-- If the lines of the range are all body lines, the body assigns nothing behind them: it has no
more assignments than the range has lines. -/
theorem assignments_back (range : WriteRange d options effective)
    (hplain : ∀ line ∈ range.old, isPlain line = true) :
    assignments (bodyLines range.back) = [] := by
  have hle := range.assignments_le
  rw [bodyLines_append_of_plain hplain, TemplateBlock.assignments_append, List.length_append,
    range.length_assignments_old] at hle
  apply List.length_eq_zero_iff.1
  omega

theorem Plain.shown_eq {range : WriteRange d options effective} (h : range.Plain) :
    Entry.shown effective.entries = effective.entries := by
  rw [Entry.shown_of_untagged h.untagged.written, List.filter_eq_self]
  exact h.written

theorem Plain.not_any_tagged {range : WriteRange d options effective} (h : range.Plain) :
    (effective.entries.any fun e => isTagged (Entry.line e)) = false := by
  rw [List.any_eq_false]
  intro e he
  simp [h.untagged.written e he]

/-- The written entries are the whole block that is read again. -/
theorem Plain.block?_written {range : WriteRange d options effective} (h : range.Plain) :
    range.written.block? (d.targetKind options) =
      some
        { tagLine := range.front.length
          settings := effective
          assignmentLines := effective.size } := by
  have hentries : OrderedMap.ofList effective.entries = effective :=
    OrderedMap.ext_entries (OrderedMap.entries_ofList effective.nodup)
  rw [WriteRange.block?_written, assignments_written, h.shown_eq, h.not_any_tagged,
    assignments_back range h.old, if_neg (by simp), List.append_nil, hentries]
  rfl

theorem Plain.block? {range : WriteRange d options effective} (h : range.Plain) :
    d.block? (d.targetKind options) =
      some
        { tagLine := range.front.length
          settings := .ofList (assignments (bodyLines (range.old ++ range.back)))
          assignmentLines := effective.size } := by
  have hbody : assignments (bodyLines (range.old ++ range.back)) = assignments range.old := by
    rw [bodyLines_append_of_plain h.old, TemplateBlock.assignments_append,
      assignments_back range h.old, List.append_nil]
  rw [Document.block?_of_append range.lines_eq range.opens_front range.opens_tagLine, hbody,
    range.length_assignments_old]

/-! ### The model of the written document -/

/-- The written configuration is read again as the template. -/
theorem Plain.template_written {range : WriteRange d options effective} (h : range.Plain)
    (hkind : d.targetKind options = .template) :
    (Model.ofDocument range.written options).template = effective := by
  have hblock := h.block?_written
  rw [hkind] at hblock
  rw [Model.template_ofDocument, hblock]
  rfl

/-- The written configuration is read again as the baseline, if it keeps the constants. -/
theorem Plain.baseline_written {range : WriteRange d options effective} (h : range.Plain)
    (hkeys : effective.keys = (Model.ofDocument d options).template.keys)
    (hconstants : ∀ key, (Model.ofDocument d options).isConstant key = true →
      effective.get? key = (Model.ofDocument d options).template.get? key) :
    (Model.ofDocument range.written options).baseline = effective := by
  rcases d.targetKind_eq options with hoverwritten | htemplate
  · have htemplate := WriteRange.template_written h.untagged hoverwritten
    have hbehind : behindRange effective range.back = .empty := by
      rw [behindRange, h.not_any_tagged, assignments_back range h.old]
      rfl
    refine (range.baseline_written_block hoverwritten rfl).2 ⟨?_, ?_, ?_, ?_⟩
    · rw [htemplate, hkeys]
    · intro e he hconstant
      rw [Model.isConstant, constraints_written h.untagged] at hconstant
      rw [htemplate, ← hconstants e.1 hconstant]
      exact (effective.mem_entries_iff e.1 e.2).1 he
    · intro e _ _ value hvalue
      rw [hbehind] at hvalue
      exact absurd hvalue (by simp [OrderedMap.get?, OrderedMap.empty, Pairs.find?])
    · intro e he _ hhidden
      rw [h.shown_eq] at hhidden
      exact absurd he hhidden
  · have hnone := honoured?_written h.untagged htemplate
    rw [Model.baseline_ofDocument, hnone]
    exact h.template_written htemplate

/-- Values are written to the same place again. -/
theorem Plain.target_written {range : WriteRange d options effective} (h : range.Plain) :
    (Model.ofDocument range.written options).target = (Model.ofDocument d options).target := by
  have hbefore := h.block?
  have hafter := h.block?_written
  rw [Model.target_ofDocument, Model.target_ofDocument]
  rcases d.targetKind_eq options with hkind | hkind
  · have hlegacy := Document.legacy_of_targetKind hkind
    rw [hkind] at hbefore hafter
    simp only [Document.honoured?, hlegacy, if_true, hbefore, hafter, TemplateBlock.target]
  · have hnone := (Document.honoured?_eq_none_iff d options).2 hkind
    rw [hkind] at hbefore hafter
    simp only [hnone, honoured?_written h.untagged hkind, hbefore, hafter, Option.map_some,
      TemplateBlock.target]

end WriteRange

/-! ### Diagnostics -/

/-- What the overwriting block leaves out is logged and no matter for the user. -/
theorem Overwrite.diagnostics_notices (constraints : Constraints) (template block : Settings) :
    Notice.diagnostics (notices constraints template block) = [] := by
  rw [Notice.diagnostics, List.filterMap_eq_nil_iff]
  intro notice hmem
  obtain ⟨key, _, hnotice⟩ := List.mem_filterMap.1 hmem
  split at hnotice
  · rw [← Option.some.inj hnotice]
    rfl
  · split at hnotice
    · rw [← Option.some.inj hnotice]
      rfl
    · exact absurd hnotice (by simp)

/-- The notices of the sections of a document, with the one of a block that is not honoured. -/
def Document.sectionNotices (d : Document) (options : LoadOptions) : List Notice :=
  let sections := Sections.ofLines d.lines
  sections.notices
    ++ TemplateBlock.noticesOfGroups .template (sections.groups .template)
    ++ TemplateBlock.noticesOfGroups .overwritten (sections.groups .overwritten)
    ++ Modes.noticesOfGroups (sections.groups .mode)
    ++ Constraints.noticesOfGroups (sections.groups .value)
    ++ match (d.block? .overwritten).map (·.tagLine) with
      | none => []
      | some line => if options.legacyOverwritten then [] else [.ignoredLegacy line]

/-- The diagnostics of a document are those of its notices, sorted by line. -/
theorem Loaded.diagnostics_ofDocument (d : Document) (options : LoadOptions) :
    (ofDocument d options).diagnostics =
      sortByLine (Notice.diagnostics (d.sectionNotices options)) := by
  simp only [diagnostics, ofDocument, Document.sectionNotices, Document.block?]
  cases TemplateBlock.ofGroups ((Sections.ofLines d.lines).groups .overwritten) with
  | none => simp
  | some block =>
      cases options.legacyOverwritten with
      | false => simp
      | true =>
          have hnone := Overwrite.diagnostics_notices
          simp only [Notice.diagnostics] at hnone ⊢
          simp [hnone]

theorem TemplateBlock.assignedKeys_append (front back : List NumberedLine) :
    assignedKeys (front ++ back) = assignedKeys front ++ assignedKeys back :=
  List.filterMap_append

/-- Which line assigns which key is the same for all lines that hold the same entries. -/
theorem TemplateBlock.assignedKeys_numbered {texts : List String} {es : List Entry}
    (hheld : List.Forall₂ (fun text e => Entry.HeldBy e text) texts es) (i : Nat) :
    assignedKeys (NumberedLine.numbered i texts) =
      assignedKeys (NumberedLine.numbered i (es.map Entry.line)) := by
  induction hheld generalizing i with
  | nil => rfl
  | @cons text e texts es hhead _ ih =>
      obtain ⟨value, hparse⟩ := hhead
      have hline := Entry.parse?_line (Entry.isKey_of_heldBy ⟨value, hparse⟩)
      have hrest := ih (i + 1)
      simp only [assignedKeys] at hrest ⊢
      simp [NumberedLine.numbered, hparse, hline, hrest]

namespace WriteRange

variable {d : Document} {options : LoadOptions} {effective : Settings}

/-- The target's group gives the same notices before and after the write. -/
theorem Plain.noticesOfGroups_written {range : WriteRange d options effective} (h : range.Plain)
    (kind : TagKind) :
    TemplateBlock.noticesOfGroups kind
        ((Sections.ofLines range.written.lines).groups (d.targetKind options)) =
      TemplateBlock.noticesOfGroups kind
        ((Sections.ofLines d.lines).groups (d.targetKind options)) := by
  obtain ⟨tag, htag, hkind⟩ := exists_tag_of_opens range.opens_tagLine
  have hkeys := TemplateBlock.assignedKeys_numbered range.heldBy (range.front.length + 1)
  rw [range.lines_written, range.lines_eq,
    Sections.groups_region htag hkind range.opens_front h.untagged.old,
    Sections.groups_region htag hkind range.opens_front h.untagged.written_lines,
    range.length_lines,
    Sections.ofLinesFrom_of_plain h.old, Sections.ofLinesFrom_of_plain h.written_lines]
  simp only [TemplateBlock.noticesOfGroups, TemplateBlock.assignedKeys_append, hkeys]

/-- Unknown tags are noticed as they were. -/
theorem Plain.notices_written {range : WriteRange d options effective} (h : range.Plain) :
    (Sections.ofLines range.written.lines).notices = (Sections.ofLines d.lines).notices := by
  obtain ⟨tag, htag, _⟩ := exists_tag_of_opens range.opens_tagLine
  rw [range.lines_written, range.lines_eq, Sections.ofLines_region htag h.untagged.old,
    Sections.ofLines_region htag h.untagged.written_lines, range.length_lines,
    Sections.ofLinesFrom_of_plain h.old, Sections.ofLinesFrom_of_plain h.written_lines]
  rfl

/-- Reading the written document notices nothing that was not there before. -/
theorem Plain.diagnostics_written {range : WriteRange d options effective} (h : range.Plain) :
    (Loaded.ofDocument range.written options).diagnostics =
      (Loaded.ofDocument d options).diagnostics := by
  have hmode := groups_written h.untagged (d.mode_ne_targetKind options)
  have hvalue := groups_written h.untagged (d.value_ne_targetKind options)
  have hblocks : ∀ kind, TemplateBlock.noticesOfGroups kind
        ((Sections.ofLines range.written.lines).groups kind) =
      TemplateBlock.noticesOfGroups kind ((Sections.ofLines d.lines).groups kind) := by
    intro kind
    by_cases hkind : kind = d.targetKind options
    · rw [hkind]
      exact h.noticesOfGroups_written _
    · rw [groups_written h.untagged hkind]
  have hlegacy : (range.written.block? .overwritten).map (·.tagLine) =
      (d.block? .overwritten).map (·.tagLine) := by
    rcases d.targetKind_eq options with hkind | hkind
    · rw [← hkind, h.block?, h.block?_written]
      rfl
    · rw [block?_written_of_ne h.untagged (by simp [hkind])]
  rw [Loaded.diagnostics_ofDocument, Loaded.diagnostics_ofDocument, Document.sectionNotices,
    Document.sectionNotices]
  simp only [h.notices_written, hblocks, hmode, hvalue, hlegacy]

end WriteRange

/-! ### Edits -/

/-- The `n` lines behind the target's tag. -/
def PatchTarget.range (target : PatchTarget) (n : Nat) (lines : List String) : List String :=
  (lines.drop target.firstLine).take n

theorem PatchTarget.range_append {target : PatchTarget} {front lines : List String}
    (hfirst : target.firstLine = front.length) {n : Nat} (hlength : lines.length = n)
    (back : List String) : target.range n (front ++ (lines ++ back)) = lines := by
  rw [range, hfirst, List.drop_left]
  exact List.take_left' hlength

namespace Model

/-- The patch of an edit that changes something applies, and if no line of its range carries a
marker before or after, the written document is read as the effective configuration and all its
annotations as before. -/
theorem edit_undisturbed (d : Document) (options : LoadOptions) {effective : Settings}
    {request : Request} {edit : Edit} (hreached : (ofDocument d options).Reached effective)
    (hedit : (ofDocument d options).edit effective request = .ok edit)
    (hchanged : edit.isNoop = false) :
    ∃ target written, (ofDocument d options).target = some target ∧
      edit.patch.applyTo d = .ok written ∧
      ((∀ line ∈ target.range edit.effective.size d.lines, isPlain line = true) →
        (∀ line ∈ target.range edit.effective.size written.lines, isPlain line = true) →
        (ofDocument written options).baseline = edit.effective ∧
          (ofDocument written options).modes = (ofDocument d options).modes ∧
          (ofDocument written options).constraints = (ofDocument d options).constraints ∧
          (ofDocument written options).target = (ofDocument d options).target ∧
          (Loaded.ofDocument written options).diagnostics =
            (Loaded.ofDocument d options).diagnostics ∧
          (target.kind = .template → (ofDocument written options).template = edit.effective) ∧
          (target.kind = .overwritten →
            (ofDocument written options).template = (ofDocument d options).template)) := by
  have hcompute := (edit_eq_ok hedit).1
  have hpatch := (edit_eq_ok hedit).2.2 hchanged
  have hne := isEmpty_eq_false_of_changes hedit hchanged
  have hnext : (ofDocument d options).Reached edit.effective := hreached.step hcompute
  obtain ⟨range, ⟨target, htarget, hkind, hfirst⟩, hinstructions⟩ :=
    writeRange_of_patchFor hne hpatch
  refine ⟨target, range.written, htarget, by rw [hinstructions]; exact range.applyTo, ?_⟩
  have hbefore : target.range edit.effective.size d.lines = range.old := by
    rw [range.lines_eq_before]
    exact PatchTarget.range_append hfirst range.length_old _
  have hafter : target.range edit.effective.size range.written.lines =
      edit.effective.entries.map Entry.line :=
    PatchTarget.range_append hfirst (List.length_map _) _
  rw [hbefore, hafter]
  intro hold hwritten
  have hplain : range.Plain := ⟨hold, fun e he => hwritten _ (List.mem_map_of_mem he)⟩
  refine ⟨?_, WriteRange.modes_written hplain.untagged,
    WriteRange.constraints_written hplain.untagged, hplain.target_written,
    hplain.diagnostics_written, ?_, ?_⟩
  · refine hplain.baseline_written ?_ fun key hconstant => hnext.get?_of_constant hconstant
    rw [hnext.keys, keys_baseline_ofDocument]
  · intro htemplate
    exact hplain.template_written (hkind ▸ htemplate)
  · intro hoverwritten
    exact WriteRange.template_written hplain.untagged (hkind ▸ hoverwritten)

/-- A mode over an overwriting block with a constant in it: the block is rewritten, the template and
the constant stay. -/
theorem overwriting_undisturbed :
    let lines := ["// @env-template", "A=1", "B=2", "// @env-overwritten", "A=5", "B=6",
      "// @env-value:B(constant)", "// @env-mode:m.n", "// A=7", "// B=8"]
    let options : LoadOptions := { legacyOverwritten := true }
    let m := ofDocument (.ofLines lines) options
    ∃ edit written, m.edit m.baseline (.selectMode ⟨"m", "n"⟩) = .ok edit ∧
      edit.patch.applyTo (.ofLines lines) = .ok written ∧
      edit.effective = .ofList [("A", "7"), ("B", "2")] ∧
      (ofDocument written options).baseline = edit.effective ∧
      (ofDocument written options).template = m.template := by
  intro lines options m
  have hparts : (m.edit m.baseline (.selectMode ⟨"m", "n"⟩)).map
        (fun e => (e.effective, e.changes, e.patch.instructions)) =
      .ok (.ofList [("A", "7"), ("B", "2")], .ofList [("A", "7")], [⟨4, "A=7"⟩, ⟨5, "B=2"⟩]) := by
    decide +kernel
  obtain ⟨edit, hedit, heffective, hchanges, hinstructions⟩ := exists_edit hparts
  have hchanged : edit.isNoop = false := by
    rw [Edit.isNoop, hchanges]
    decide
  obtain ⟨target, written, htarget, happly, hread⟩ :=
    edit_undisturbed (.ofLines lines) options .baseline hedit hchanged
  have hplace : m.target = some ⟨.overwritten, 3, 2⟩ := by decide +kernel
  obtain rfl : target = ⟨.overwritten, 3, 2⟩ := Option.some.inj (htarget.symm.trans hplace)
  have hlines : written.lines = ["// @env-template", "A=1", "B=2", "// @env-overwritten", "A=7",
      "B=2", "// @env-value:B(constant)", "// @env-mode:m.n", "// A=7", "// B=8"] := by
    rw [((Patch.applyTo_eq_ok_iff _ _ _).1 happly).2.2, hinstructions]
    rfl
  rw [heffective, hlines] at hread
  obtain ⟨hbaseline, _, _, _, _, _, htemplate⟩ := hread (by decide +kernel) (by decide +kernel)
  exact ⟨edit, written, hedit, happly, heffective, heffective ▸ hbaseline, htemplate rfl⟩

end Model

end AnnotatedEnv
