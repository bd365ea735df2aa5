/-
Module: AnnotatedEnv.Proofs.OwnLines
Purpose: Whether the lines that a patch rewrites are the lines that the values were read from.
Main exports: NumberedLine.Assigns, LinePatch.RewritesOwn, Model.RewritesOwnLines,
  WriteRange.replaced_eq, WriteRange.rewritesOwn, Model.patch_rewrites_own_lines_iff,
  Model.skipped_line_rewritten
Making a patch looks for the keys on raw lines, while reading takes values from body lines alone. A
line with a marker may hold a key without being a body line.
-/
import Mathlib.Data.List.Nodup
import AnnotatedEnv.Proofs.Undisturbed

namespace AnnotatedEnv

open TemplateBlock (assignments)

/-! ### Own lines -/

/-- The line assigns the key, whatever the value. -/
def NumberedLine.Assigns (line : NumberedLine) (key : String) : Prop :=
  ∃ value, Assignment.parse? line.text = some ⟨key, value⟩

/-- The instruction rewrites a plain line that the group owns and that assigns the key, as no other
line of the group does. -/
structure LinePatch.RewritesOwn (p : LinePatch) (d : Document) (group : TagGroup) (key : String)
    (line : NumberedLine) : Prop where
  mem : line ∈ group.body
  index : line.index = p.index
  text : d.line? p.index = some line.text
  plain : isPlain line.text = true
  assigns_iff : ∀ other ∈ group.body, other.Assigns key ↔ other = line

/-- Instruction by instruction, a patch rewrites the lines of the target's group that the keys of a
configuration are read from. -/
def Model.RewritesOwnLines (m : Model) (effective : Settings) (patch : Patch) : Prop :=
  List.Forall₂
    (fun p key => ∃ target group line, m.target = some target ∧
      ((Sections.ofLines m.document.lines).groups target.kind).head? = some group ∧
      group.tagLine = target.tagLine ∧ p.RewritesOwn m.document group key line)
    patch.instructions effective.keys

/-! ### Numbered lists -/

theorem NumberedLine.mem_numbered_iff {i : Nat} {lines : List String} {line : NumberedLine} :
    line ∈ numbered i lines ↔ ∃ j, ∃ h : j < lines.length, line = ⟨i + j, lines[j]⟩ := by
  rw [List.mem_iff_getElem?]
  refine exists_congr fun j => ?_
  rw [getElem?_numbered, Option.map_eq_some_iff]
  constructor
  · rintro ⟨text, htext, rfl⟩
    obtain ⟨h, rfl⟩ := List.getElem?_eq_some_iff.1 htext
    exact ⟨h, rfl⟩
  · rintro ⟨h, rfl⟩
    exact ⟨lines[j], List.getElem?_eq_getElem h, rfl⟩

namespace WriteRange

variable {d : Document} {options : LoadOptions} {effective : Settings}

/-! ### Rewritten lines -/

/-- The old lines of a range stand where it begins. -/
theorem line?_old (range : WriteRange d options effective) {j : Nat} (h : j < range.old.length) :
    d.line? (range.before.length + j) = some range.old[j] := by
  rw [Document.line?, range.lines_eq_before, List.getElem?_append_right (Nat.le_add_right _ _),
    Nat.add_sub_cancel_left, List.getElem?_append_left h, List.getElem?_eq_getElem h]

/-- The patch of a range replaces the lines of the range by the lines of the entries. -/
theorem replaced_eq (range : WriteRange d options effective) :
    (⟨d.digest, LinePatch.numbered range.before.length (effective.entries.map Entry.line)⟩ :
      Patch).replaced d = range.rows.map fun r => (r.1, Entry.line r.2) := by
  rw [Patch.replaced_numbered range.lines_eq_before range.length_lines.symm, List.zip_map_right,
    rows]
  rfl

theorem forall_replaced_iff (range : WriteRange d options effective) (P : String → Prop) :
    (∀ r ∈ (⟨d.digest, LinePatch.numbered range.before.length
        (effective.entries.map Entry.line)⟩ : Patch).replaced d, P r.1) ↔
      ∀ line ∈ range.old, P line := by
  rw [range.replaced_eq, ← range.fst_rows]
  simp only [List.forall_mem_map]

/-! ### The group of the target -/

/-- The line at a place of a range holds the key of the entry at that place. -/
theorem parse?_old (range : WriteRange d options effective) {j : Nat} (h : j < range.old.length)
    (hentry : j < effective.entries.length) :
    ∃ value, Assignment.parse? range.old[j] = some ⟨effective.entries[j].1, value⟩ :=
  range.heldBy.get h hentry

/-- The body of the target's group, if all lines of the range are plain: these lines first, and
behind them lines that assign nothing. -/
theorem exists_group (range : WriteRange d options effective)
    (hplain : ∀ line ∈ range.old, isPlain line = true) :
    ∃ group behind,
      ((Sections.ofLines d.lines).groups (d.targetKind options)).head? = some group ∧
        group.tagLine = range.front.length ∧
        group.body = NumberedLine.numbered range.before.length range.old ++ behind ∧
        ∀ line ∈ behind, Assignment.parse? line.text = none := by
  obtain ⟨tag, htag, hkind⟩ := exists_tag_of_opens range.opens_tagLine
  have huntagged : ∀ line ∈ range.old, isTagged line = false :=
    fun line hline => isTagged_of_isPlain (hplain line hline)
  have hgroups := Sections.groups_region htag hkind range.opens_front huntagged range.back
  rw [← range.lines_eq, Sections.ofLinesFrom_of_plain hplain] at hgroups
  refine ⟨_, (Sections.ofLinesFrom (range.front.length + 1 + range.old.length) range.back).preamble,
    congrArg List.head? hgroups, rfl, ?_, ?_⟩
  · rw [before, List.length_append, List.length_singleton]
  · intro line hline
    have hnone := range.assignments_back hplain
    rw [assignments, List.map_eq_nil_iff, List.filterMap_eq_nil_iff] at hnone
    apply hnone
    rw [← Sections.preamble_ofLinesFrom (range.front.length + 1 + range.old.length)]
    exact List.mem_map_of_mem hline

/-- A plain line of the range is the only line of its group that assigns its key. -/
theorem rewritesOwn (range : WriteRange d options effective)
    (hplain : ∀ line ∈ range.old, isPlain line = true) {group : TagGroup}
    {behind : List NumberedLine}
    (hbody : group.body = NumberedLine.numbered range.before.length range.old ++ behind)
    (hbehind : ∀ line ∈ behind, Assignment.parse? line.text = none) {j : Nat}
    (hj : j < range.old.length) (hentry : j < effective.entries.length) (text : String) :
    LinePatch.RewritesOwn ⟨range.before.length + j, text⟩ d group effective.entries[j].1
      ⟨range.before.length + j, range.old[j]⟩ where
  mem := by
    rw [hbody, List.mem_append]
    exact Or.inl (NumberedLine.mem_numbered_iff.2 ⟨j, hj, rfl⟩)
  index := rfl
  text := range.line?_old hj
  plain := hplain _ (List.getElem_mem hj)
  assigns_iff := by
    intro other hother
    constructor
    · rintro ⟨value, hparse⟩
      rw [hbody, List.mem_append] at hother
      rcases hother with hother | hother
      · obtain ⟨i, hi, rfl⟩ := NumberedLine.mem_numbered_iff.1 hother
        have hentry' : i < effective.entries.length := range.length_old ▸ hi
        obtain ⟨value', hparse'⟩ := range.parse?_old hi hentry'
        rw [hparse'] at hparse
        have hleft : i < effective.keys.length := by simpa [OrderedMap.keys] using hentry'
        have hright : j < effective.keys.length := by simpa [OrderedMap.keys] using hentry
        have hkey : effective.keys[i] = effective.keys[j] := by
          simpa [OrderedMap.keys] using congrArg Assignment.key (Option.some.inj hparse)
        obtain rfl : i = j := (List.Nodup.getElem_inj_iff effective.nodup).1 hkey
        rfl
      · rw [hbehind other hother] at hparse
        exact absurd hparse (by simp)
    · rintro rfl
      exact range.parse?_old hj hentry

end WriteRange

/-! ### Patches -/

namespace Model

/-- A patch is known by its instructions. -/
theorem exists_patch {m : Model} {effective : Settings} {instructions : List LinePatch}
    (h : (m.patchFor effective).map (·.instructions) = .ok instructions) :
    ∃ patch, m.patchFor effective = .ok patch ∧ patch.instructions = instructions := by
  cases hpatch : m.patchFor effective with
  | error e => rw [hpatch] at h; exact absurd h (by simp [Except.map])
  | ok patch =>
      rw [hpatch] at h
      exact ⟨patch, rfl, Except.ok.inj h⟩

/-- A patch of own lines rewrites no line with a marker. -/
theorem plain_of_rewritesOwnLines {m : Model} {effective : Settings} {patch : Patch}
    (h : m.RewritesOwnLines effective patch) :
    ∀ r ∈ patch.replaced m.document, isPlain r.1 = true := by
  intro r hr
  obtain ⟨p, hp, hline⟩ := List.mem_filterMap.1 hr
  obtain ⟨text, htext, rfl⟩ := Option.map_eq_some_iff.1 hline
  obtain ⟨j, hj, rfl⟩ := List.getElem_of_mem hp
  obtain ⟨_, _, line, _, _, _, hown⟩ := h.get hj (h.length_eq ▸ hj)
  have hsame : m.document.line? patch.instructions[j].index = some line.text := hown.text
  rw [htext] at hsame
  rw [Option.some.inj hsame]
  exact hown.plain

/-- Over plain lines the patch of a range rewrites the lines that the values were read from. -/
theorem rewritesOwnLines_of_plain {d : Document} {options : LoadOptions} {effective : Settings}
    {range : WriteRange d options effective} {target : PatchTarget}
    (htarget : (ofDocument d options).target = some target)
    (hkind : target.kind = d.targetKind options)
    (hfirst : target.firstLine = range.before.length)
    (hplain : ∀ line ∈ range.old, isPlain line = true) :
    (ofDocument d options).RewritesOwnLines effective
      ⟨d.digest, LinePatch.numbered range.before.length (effective.entries.map Entry.line)⟩ := by
  obtain ⟨group, behind, hgroup, htagLine, hbody, hbehind⟩ := range.exists_group hplain
  have hplace : group.tagLine = target.tagLine := by
    have hlength : range.before.length = range.front.length + 1 := by
      rw [WriteRange.before, List.length_append, List.length_singleton]
    rw [PatchTarget.firstLine, hlength] at hfirst
    omega
  rw [RewritesOwnLines, document_ofDocument, List.forall₂_iff_get]
  refine ⟨?_, fun j hj hkey => ?_⟩
  · rw [LinePatch.length_numbered, List.length_map, OrderedMap.keys, List.length_map]
  · have hentry : j < effective.entries.length := by simpa [OrderedMap.keys] using hkey
    have hold : j < range.old.length := range.length_old.symm ▸ hentry
    have htext : j < (effective.entries.map Entry.line).length := by simpa using hentry
    have hown := range.rewritesOwn hplain hbody hbehind hold hentry
      (effective.entries.map Entry.line)[j]
    refine ⟨target, group, ⟨range.before.length + j, range.old[j]⟩, htarget,
      hkind ▸ hgroup, hplace, ?_⟩
    simp only [List.get_eq_getElem, LinePatch.getElem_numbered htext]
    simpa [OrderedMap.keys] using hown

/-- A patch rewrites the lines that the values were read from exactly if it replaces no line with a
marker. Into the template it never replaces a tag line. -/
theorem patch_rewrites_own_lines_iff (d : Document) (options : LoadOptions) {effective : Settings}
    {patch : Patch} (hpatch : (ofDocument d options).patchFor effective = .ok patch) :
    ((ofDocument d options).RewritesOwnLines effective patch ↔
        ∀ r ∈ patch.replaced d, isPlain r.1 = true) ∧
      (effective.keys = (ofDocument d options).template.keys → d.targetKind options = .template →
        ∀ r ∈ patch.replaced d, isTagged r.1 = false) := by
  cases hempty : effective.isEmpty with
  | true =>
      have hentries : effective.entries = [] := by simpa [OrderedMap.isEmpty] using hempty
      have hnone : patch.instructions = [] := by
        simp only [patchFor, hempty, if_true, Except.ok.injEq] at hpatch
        rw [← hpatch]
        rfl
      simp [RewritesOwnLines, Patch.replaced, OrderedMap.keys, hentries, hnone]
  | false =>
      obtain ⟨range, ⟨target, htarget, hkind, hfirst⟩, rfl⟩ := writeRange_of_patchFor hempty hpatch
      refine ⟨⟨fun h => ?_, fun h => ?_⟩, fun hkeys htemplate => ?_⟩
      · have hlines := plain_of_rewritesOwnLines h
        rwa [document_ofDocument] at hlines
      · exact rewritesOwnLines_of_plain htarget hkind hfirst
          ((range.forall_replaced_iff fun line => isPlain line = true).1 h)
      · rw [range.forall_replaced_iff fun line => isTagged line = false]
        exact (range.assignments_template htemplate hkeys.symm).2

/-- Over an overwriting block with a comment behind a value the own lines are rewritten. -/
theorem overwriting_block_own_lines :
    let m := ofDocument (.ofLines ["// @env-template", "A=1", "B=2", "// @env-overwritten",
      "A=5", "B=6 # six", "", "// @env-mode:m.n", "// A=7"]) { legacyOverwritten := true }
    ∃ patch, m.patchFor (.ofList [("A", "7"), ("B", "2")]) = .ok patch ∧
      patch.instructions = [⟨4, "A=7"⟩, ⟨5, "B=2"⟩] ∧
      m.RewritesOwnLines (.ofList [("A", "7"), ("B", "2")]) patch := by
  intro m
  have hparts : (m.patchFor (.ofList [("A", "7"), ("B", "2")])).map (·.instructions) =
      .ok [⟨4, "A=7"⟩, ⟨5, "B=2"⟩] := by decide +kernel
  obtain ⟨patch, hpatch, hinstructions⟩ := exists_patch hparts
  refine ⟨patch, hpatch, hinstructions, ?_⟩
  apply (patch_rewrites_own_lines_iff _ _ hpatch).1.2
  rw [Patch.replaced, hinstructions]
  decide +kernel

/-- A line that reading skips for its unknown tag holds the key, so it is rewritten in place of the
line that the value was read from. -/
theorem skipped_line_rewritten :
    let m := ofDocument (.ofLines ["// @env-template", "A=0 // @env-bogus", "A=1"]) {}
    ∃ patch, (OrderedMap.ofList [("A", "5")] : Settings).keys = m.template.keys ∧
      m.patchFor (.ofList [("A", "5")]) = .ok patch ∧
      ¬ m.RewritesOwnLines (.ofList [("A", "5")]) patch := by
  intro m
  have hparts : (m.patchFor (.ofList [("A", "5")])).map (·.instructions) = .ok [⟨1, "A=5"⟩] := by
    decide +kernel
  obtain ⟨patch, hpatch, hinstructions⟩ := exists_patch hparts
  refine ⟨patch, by decide +kernel, hpatch, fun hown => ?_⟩
  have hplain := plain_of_rewritesOwnLines hown
  rw [Patch.replaced, hinstructions] at hplain
  exact absurd hplain (by decide +kernel)

end Model

end AnnotatedEnv
