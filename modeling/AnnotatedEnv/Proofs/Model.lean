/-
Module: AnnotatedEnv.Proofs.Model
Purpose: What a loaded model takes from which block of its document.
Main exports: Document.block?, Document.targetKind, Model.template_ofDocument,
  Model.baseline_ofDocument, Model.target_ofDocument, Model.block_of_target,
  Model.keys_baseline_ofDocument, Overwrite.get?_apply, Model.get?_baseline_of_constant,
  Modes.mem_keys_ofGroups
-/
import AnnotatedEnv.Model
import AnnotatedEnv.Proofs.Section

namespace AnnotatedEnv

/-- The first group of a kind in a document, read as assignments. -/
def Document.block? (d : Document) (kind : TagKind) : Option TemplateBlock :=
  TemplateBlock.ofGroups ((Sections.ofLines d.lines).groups kind)

/-- The overwriting block, as far as the options honour it. -/
def Document.honoured? (d : Document) (options : LoadOptions) : Option TemplateBlock :=
  if options.legacyOverwritten then d.block? .overwritten else none

/-- The kind of the group that values are written into. -/
def Document.targetKind (d : Document) (options : LoadOptions) : TagKind :=
  if (d.honoured? options).isSome then .overwritten else .template

namespace Document

theorem block?_eq_map (d : Document) (kind : TagKind) :
    d.block? kind =
      (firstBody? kind 0 d.lines).map fun body =>
        { tagLine := body.1
          settings := OrderedMap.ofList (TemplateBlock.assignments body.2)
          assignmentLines := (TemplateBlock.assignments body.2).length } :=
  TemplateBlock.ofGroups_ofLinesFrom kind 0 d.lines

/-- The block of a kind is what stands behind the first tag of the kind. -/
theorem block?_of_append {d : Document} {kind : TagKind} {front rest : List String}
    {tagLine : String} (hlines : d.lines = front ++ tagLine :: rest)
    (hfront : ∀ line ∈ front, opens kind line = false) (htag : opens kind tagLine = true) :
    d.block? kind =
      some
        { tagLine := front.length
          settings := OrderedMap.ofList (TemplateBlock.assignments (bodyLines rest))
          assignmentLines := (TemplateBlock.assignments (bodyLines rest)).length } := by
  rw [block?_eq_map, hlines, firstBody?_append hfront htag, Option.map_some, Nat.zero_add]

/-- A block begins at the first line of the document that opens its kind. -/
theorem append_of_block? {d : Document} {kind : TagKind} {block : TemplateBlock}
    (h : d.block? kind = some block) :
    ∃ front tagLine rest, d.lines = front ++ tagLine :: rest ∧
      (∀ line ∈ front, opens kind line = false) ∧ opens kind tagLine = true ∧
      block =
        { tagLine := front.length
          settings := OrderedMap.ofList (TemplateBlock.assignments (bodyLines rest))
          assignmentLines := (TemplateBlock.assignments (bodyLines rest)).length } := by
  rw [block?_eq_map, Option.map_eq_some_iff] at h
  obtain ⟨⟨j, body⟩, hbody, rfl⟩ := h
  obtain ⟨front, tagLine, rest, hlines, rfl, hfront, htag, rfl⟩ := exists_of_firstBody? hbody
  exact ⟨front, tagLine, rest, hlines, hfront, htag, by simp⟩

/-- There is no block exactly if no line opens one. -/
theorem block?_eq_none_iff (d : Document) (kind : TagKind) :
    d.block? kind = none ↔ ∀ line ∈ d.lines, opens kind line = false := by
  rw [block?_eq_map, Option.map_eq_none_iff, firstBody?_eq_none_iff]

theorem legacy_of_targetKind {d : Document} {options : LoadOptions}
    (h : d.targetKind options = .overwritten) : options.legacyOverwritten = true := by
  cases hlegacy : options.legacyOverwritten with
  | true => rfl
  | false => simp [targetKind, honoured?, hlegacy] at h

/-- Without an honoured block nothing is overwritten, and values go to the template. -/
theorem honoured?_eq_none_iff (d : Document) (options : LoadOptions) :
    d.honoured? options = none ↔ d.targetKind options = .template := by
  cases h : d.honoured? options <;> simp [targetKind, h]

theorem targetKind_eq (d : Document) (options : LoadOptions) :
    d.targetKind options = .overwritten ∨ d.targetKind options = .template := by
  cases h : d.honoured? options <;> simp [targetKind, h]

theorem mode_ne_targetKind (d : Document) (options : LoadOptions) :
    TagKind.mode ≠ d.targetKind options := by
  rcases d.targetKind_eq options with hkind | hkind <;> simp [hkind]

theorem value_ne_targetKind (d : Document) (options : LoadOptions) :
    TagKind.value ≠ d.targetKind options := by
  rcases d.targetKind_eq options with hkind | hkind <;> simp [hkind]

end Document

namespace Model

/-! ### Fields of a loaded model -/

/-- A model keeps the document that it was read from. -/
theorem document_ofDocument (d : Document) (options : LoadOptions) :
    (ofDocument d options).document = d := by
  simp only [ofDocument, Loaded.ofDocument]
  split
  · rfl
  · split <;> rfl

/-- The template is what the first template block assigns. -/
theorem template_ofDocument (d : Document) (options : LoadOptions) :
    (ofDocument d options).template = ((d.block? .template).map (·.settings)).getD .empty := by
  simp only [ofDocument, Loaded.ofDocument]
  split
  · rfl
  · split <;> rfl

/-- The presets are those of the mode groups. -/
theorem modes_ofDocument (d : Document) (options : LoadOptions) :
    (ofDocument d options).modes = .ofGroups ((Sections.ofLines d.lines).groups .mode) := by
  simp only [ofDocument, Loaded.ofDocument]
  split
  · rfl
  · split <;> rfl

/-- The constraints are those of the value groups. -/
theorem constraints_ofDocument (d : Document) (options : LoadOptions) :
    (ofDocument d options).constraints = .ofGroups ((Sections.ofLines d.lines).groups .value) := by
  simp only [ofDocument, Loaded.ofDocument]
  split
  · rfl
  · split <;> rfl

/-- The baseline is the template, overwritten by the honoured block. -/
theorem baseline_ofDocument (d : Document) (options : LoadOptions) :
    (ofDocument d options).baseline =
      match d.honoured? options with
      | none => (ofDocument d options).template
      | some block =>
        Overwrite.apply (ofDocument d options).constraints (ofDocument d options).template
          block.settings := by
  simp only [ofDocument, Loaded.ofDocument, Document.honoured?, Document.block?]
  cases hblock : TemplateBlock.ofGroups ((Sections.ofLines d.lines).groups .overwritten) with
  | none => cases options.legacyOverwritten <;> rfl
  | some block => cases options.legacyOverwritten <;> rfl

/-- Values are written into the honoured block, else into the template. -/
theorem target_ofDocument (d : Document) (options : LoadOptions) :
    (ofDocument d options).target =
      match d.honoured? options with
      | none => (d.block? .template).map (·.target .template)
      | some block => some (block.target .overwritten) := by
  simp only [ofDocument, Loaded.ofDocument, Document.honoured?, Document.block?]
  cases hblock : TemplateBlock.ofGroups ((Sections.ofLines d.lines).groups .overwritten) with
  | none => cases options.legacyOverwritten <;> rfl
  | some block => cases options.legacyOverwritten <;> rfl

/-- The place to write is the block of the kind that the options call for. -/
theorem block_of_target {d : Document} {options : LoadOptions} {target : PatchTarget}
    (h : (ofDocument d options).target = some target) :
    ∃ block, d.block? (d.targetKind options) = some block ∧
      target = block.target (d.targetKind options) := by
  rw [target_ofDocument] at h
  cases hblock : d.honoured? options with
  | none =>
      rw [hblock] at h
      obtain ⟨block, htemplate, rfl⟩ := Option.map_eq_some_iff.1 h
      exact ⟨block, by simp [Document.targetKind, hblock, htemplate],
        by simp [Document.targetKind, hblock]⟩
  | some block =>
      rw [hblock] at h
      simp only [Document.honoured?] at hblock
      split at hblock
      · next hlegacy =>
        refine ⟨block, ?_, ?_⟩
        · simp [Document.targetKind, Document.honoured?, hlegacy, hblock]
        · simpa [Document.targetKind, Document.honoured?, hlegacy, hblock, eq_comm] using h
      · exact absurd hblock (by simp)

/-- An overwriting block neither adds keys nor moves them. -/
theorem keys_baseline_ofDocument (d : Document) (options : LoadOptions) :
    (ofDocument d options).baseline.keys = (ofDocument d options).template.keys := by
  rw [baseline_ofDocument]
  split
  · rfl
  · exact OrderedMap.keys_replaceAll _ _

end Model

/-! ### The overwriting block -/

/-- The block sets the keys that the template has and that are not constant. -/
theorem Overwrite.get?_apply (constraints : Constraints) (template block : Settings) {key : String}
    (hkey : key ∈ template.keys) :
    (apply constraints template block).get? key =
      if constraints.isConstant key then template.get? key
      else (block.get? key).or (template.get? key) := by
  have hcontains : template.contains key = true := (template.contains_iff_mem_keys key).2 hkey
  rw [apply, OrderedMap.get?_replaceAll _ (OrderedMap.nodup _), if_pos hcontains]
  cases hconstant : constraints.isConstant key with
  | true =>
      have hnone : (block.filter fun e => admits constraints template e.1).get? key = none := by
        rw [OrderedMap.get?_eq_none_iff, OrderedMap.keys, OrderedMap.filter]
        intro hmem
        obtain ⟨e, he, rfl⟩ := List.mem_map.1 hmem
        have hadmits := (List.mem_filter.1 he).2
        simp [admits, hconstant] at hadmits
      simp only [OrderedMap.get?] at hnone
      simp [hnone]
  | false =>
      have hfilter : (block.filter fun e => admits constraints template e.1).get? key =
          block.get? key := by
        apply Option.ext
        intro value
        rw [← OrderedMap.mem_entries_iff, ← OrderedMap.mem_entries_iff, OrderedMap.filter,
          List.mem_filter]
        simp [admits, hcontains, hconstant]
      simp only [OrderedMap.get?] at hfilter ⊢
      simp [hfilter]

/-- A key that must stay constant has in the baseline what the template gives it. -/
theorem Model.get?_baseline_of_constant (d : Document) (options : LoadOptions) {key : String}
    (hconstant : (ofDocument d options).isConstant key = true) :
    (ofDocument d options).baseline.get? key = (ofDocument d options).template.get? key := by
  by_cases hkey : key ∈ (ofDocument d options).template.keys
  · rw [baseline_ofDocument]
    split
    · rfl
    · rw [Overwrite.get?_apply _ _ _ hkey]
      exact if_pos hconstant
  · have hbaseline : key ∉ (ofDocument d options).baseline.keys := by
      rwa [keys_baseline_ofDocument]
    rw [(OrderedMap.get?_eq_none_iff _ key).2 hkey, (OrderedMap.get?_eq_none_iff _ key).2 hbaseline]

/-! ### Presets -/

theorem Modes.mem_keys_addGroup (modes : Modes) (group : TagGroup) (id : ModeId) :
    id ∈ (modes.addGroup group).keys ↔
      id ∈ modes.keys ∨ ModeId.ofPayload group.tag.payload = .ok id := by
  simp only [addGroup]
  split
  · next hpayload => simp [hpayload]
  · next found hpayload =>
    rw [hpayload]
    split
    · next known hget =>
      have hknown : found ∈ modes.keys := OrderedMap.mem_keys_of_get? hget
      rw [OrderedMap.keys_replace, Except.ok.injEq]
      constructor
      · exact Or.inl
      · rintro (hmem | rfl)
        · exact hmem
        · exact hknown
    · next hget =>
      have hnew : found ∉ modes.keys := (modes.get?_eq_none_iff found).1 hget
      simp [OrderedMap.keys_insert, hnew, eq_comm]

/-- The ids of a document's presets are the payloads of its mode groups. -/
theorem Modes.mem_keys_ofGroups (groups : List TagGroup) (id : ModeId) :
    id ∈ (ofGroups groups).keys ↔
      ∃ group ∈ groups, ModeId.ofPayload group.tag.payload = .ok id := by
  have hfold : ∀ (modes : Modes), id ∈ (groups.foldl addGroup modes).keys ↔
      id ∈ modes.keys ∨ ∃ group ∈ groups, ModeId.ofPayload group.tag.payload = .ok id := by
    induction groups with
    | nil => simp
    | cons group groups ih =>
        intro modes
        rw [List.foldl_cons, ih, mem_keys_addGroup]
        simp [or_assoc]
  rw [ofGroups, hfold]
  simp [OrderedMap.keys, OrderedMap.empty]

end AnnotatedEnv
