/-
Module: AnnotatedEnv.Proofs.ExactDiagnostics
Purpose: Which lines of a document have a diagnostic, and which one it is.
Main exports: Document.TagAt, Document.FirstTag, Document.bodyAt, Document.CallsFor,
  Document.ExactDiagnostics, Loaded.diagnostics_exact
Reading gives notice in six places, one after the other, and sorts what it noticed by lines in the
end. What calls for a diagnostic is told here from the lines alone.
-/
import AnnotatedEnv.Proofs.Diagnostics
import AnnotatedEnv.Proofs.Partition
import AnnotatedEnv.Proofs.RepeatedKeys

namespace AnnotatedEnv

open TemplateBlock (assignedKeys repeats)

/-! ### What calls for a diagnostic -/

namespace Diagnostic

/-- What is told of a tag with an unknown name. -/
def unknownName (line : Nat) (name : String) : Diagnostic :=
  ⟨line, .malformedTag, "unknown tag '@" ++ name ++ "'"⟩

/-- What is told of a tag with a refused payload. -/
def refused (line : Nat) (e : TagError) : Diagnostic :=
  ⟨line, .malformedTag, e.message⟩

/-- What is told of a tag of a kind behind the first one. -/
def laterSection (line : Nat) (kind : TagKind) (first : Nat) : Diagnostic :=
  ⟨line, .duplicateTemplate,
    "'@" ++ kind.name ++ "' already declared on line " ++ toString (first + 1)
      ++ "; section ignored"⟩

/-- What is told of an overwriting block that is not honoured. -/
def ignoredBlock (line : Nat) : Diagnostic :=
  ⟨line, .legacySectionIgnored, "'@env-overwritten' is ignored unless legacy mode is enabled"⟩

end Diagnostic

/-- Only the first group of the kind counts, and it is read as assignments. -/
def TagKind.HoldsBlock (kind : TagKind) : Prop :=
  kind = .template ∨ kind = .overwritten

namespace Document

/-- The line with this number carries the tag. -/
def TagAt (d : Document) (i : Nat) (tag : Tag) : Prop :=
  ∃ line, d.line? i = some line ∧ scanLine line = .tag tag

/-- The first line with a tag of the kind. -/
structure FirstTag (d : Document) (kind : TagKind) (i : Nat) : Prop where
  tagged : ∃ tag, d.TagAt i tag ∧ tag.kind = kind
  first : ∀ j tag, d.TagAt j tag → tag.kind = kind → i ≤ j

/-- The plain lines between a tag line and the next one. -/
def bodyAt (d : Document) (tagLine : Nat) : List NumberedLine :=
  plainUntilTag ((NumberedLine.numbered 0 d.lines).drop (tagLine + 1))

/-- The first line of a body that assigns the key. -/
structure FirstAssigns (d : Document) (tagLine : Nat) (key : String) (line : NumberedLine) :
    Prop where
  mem : line ∈ d.bodyAt tagLine
  assigns : line.Assigns key
  first : ∀ other ∈ d.bodyAt tagLine, other.Assigns key → line.index ≤ other.index

/-- What is wrong with the lines of a document. -/
inductive CallsFor (d : Document) (options : LoadOptions) : Diagnostic → Prop where
  /-- A tag whose name is unknown. -/
  | unknownName {i : Nat} {line name : String} (at_line : d.line? i = some line)
      (scan : scanLine line = .unknown name) :
      CallsFor d options (.unknownName i name)
  /-- A mode tag with a payload that is no mode id. -/
  | refusedMode {i : Nat} {tag : Tag} {e : TagError} (tagged : d.TagAt i tag)
      (kind : tag.kind = .mode) (refused : ModeId.ofPayload tag.payload = .error e) :
      CallsFor d options (.refused i e)
  /-- A value tag with a payload that names no keys. -/
  | refusedValue {i : Nat} {tag : Tag} {e : TagError} (tagged : d.TagAt i tag)
      (kind : tag.kind = .value) (refused : ValueSpec.ofPayload tag.payload = .error e) :
      CallsFor d options (.refused i e)
  /-- A template or overwriting tag behind the first one of its kind. -/
  | laterSection {i first : Nat} {tag : Tag} (tagged : d.TagAt i tag)
      (block : tag.kind.HoldsBlock) (earlier : d.FirstTag tag.kind first) (later : first < i) :
      CallsFor d options (.laterSection i tag.kind first)
  /-- The first overwriting tag, if the options do not honour its block. -/
  | ignoredBlock {i : Nat} (first : d.FirstTag .overwritten i)
      (off : options.legacyOverwritten = false) :
      CallsFor d options (.ignoredBlock i)
  /-- A body line of a block with a key that an earlier line of the body assigns. -/
  | repeatedKey {kind : TagKind} {tagLine : Nat} {line earlier : NumberedLine} {key : String}
      (block : kind.HoldsBlock) (first : d.FirstTag kind tagLine) (mem : line ∈ d.bodyAt tagLine)
      (assigns : line.Assigns key) (before : d.FirstAssigns tagLine key earlier)
      (later : earlier.index < line.index) :
      CallsFor d options (.repeatedKey line.index key earlier.index)

/-- Diagnostics in the order of their lines, one for each line that calls for one. -/
structure ExactDiagnostics (d : Document) (options : LoadOptions) (found : List Diagnostic) :
    Prop where
  /-- No line has two. -/
  ordered : found.Pairwise (·.line < ·.line)
  /-- They are those that the lines call for. -/
  mem_iff : ∀ diagnostic, diagnostic ∈ found ↔ d.CallsFor options diagnostic
  /-- In a block there is one for every assignment but the first one of each key. -/
  counted : ∀ kind tagLine, kind.HoldsBlock → d.FirstTag kind tagLine →
    (assignedKeys (d.bodyAt tagLine)).length =
      ((assignedKeys (d.bodyAt tagLine)).map Prod.snd).toFinset.card +
        (found.filter fun diagnostic => diagnostic.kind = .duplicateKey ∧
          diagnostic.line ∈ (d.bodyAt tagLine).map (·.index)).length

end Document

/-! ### Refused payloads -/

/-- The diagnostic of a group whose payload is refused. -/
def TagGroup.refusal? {α : Type} (read : Option String → Except TagError α) (group : TagGroup) :
    Option Diagnostic :=
  match read group.tag.payload with
  | .error e => some (.refused group.tagLine e)
  | .ok _ => none

namespace TagGroup

variable {α : Type} {read : Option String → Except TagError α}

/-- A group is refused exactly if its payload cannot be read. -/
theorem refusal?_eq_some_iff {group : TagGroup} {diagnostic : Diagnostic} :
    group.refusal? read = some diagnostic ↔ ∃ e, read group.tag.payload = .error e ∧
      diagnostic = .refused group.tagLine e := by
  rw [refusal?]
  cases read group.tag.payload with
  | error e => simp [eq_comm]
  | ok _ => simp

/-- Refusals come in the order of the groups, at most one for each. -/
theorem lines_refusals_sublist (read : Option String → Except TagError α)
    (groups : List TagGroup) :
    ((groups.filterMap (refusal? read)).map (·.line)).Sublist (groups.map (·.tagLine)) := by
  induction groups with
  | nil => exact .refl _
  | cons group groups ih =>
      rw [List.filterMap_cons, refusal?]
      cases read group.tag.payload with
      | error e => exact ih.cons_cons group.tagLine
      | ok _ => exact ih.cons group.tagLine

end TagGroup

theorem Notice.diagnostics_append (front back : List Notice) :
    diagnostics (front ++ back) = diagnostics front ++ diagnostics back :=
  List.filterMap_append

/-- Of mode groups only refused payloads concern the user. -/
theorem Modes.diagnostics_noticesFrom (modes : Modes) (groups : List TagGroup) :
    Notice.diagnostics (noticesFrom modes groups) =
      groups.filterMap (TagGroup.refusal? ModeId.ofPayload) := by
  induction groups generalizing modes with
  | nil => rfl
  | cons group groups ih =>
      rw [noticesFrom, Notice.diagnostics_append, ih, List.filterMap_cons, groupNotices,
        TagGroup.refusal?]
      cases ModeId.ofPayload group.tag.payload with
      | error e => rfl
      | ok id =>
          cases hknown : modes.contains id <;>
            simp [hknown, Notice.diagnostics, Notice.diagnostic?]

/-- Of value groups only refused payloads concern the user. -/
theorem Constraints.diagnostics_noticesFrom (constraints : Constraints) (groups : List TagGroup) :
    Notice.diagnostics (noticesFrom constraints groups) =
      groups.filterMap (TagGroup.refusal? ValueSpec.ofPayload) := by
  induction groups generalizing constraints with
  | nil => rfl
  | cons group groups ih =>
      rw [noticesFrom, Notice.diagnostics_append, ih, List.filterMap_cons, groupNotices,
        TagGroup.refusal?]
      cases ValueSpec.ofPayload group.tag.payload with
      | error e => rfl
      | ok spec => simp [Notice.diagnostics, Notice.diagnostic?]

/-! ### One diagnostic at most -/

/-- The tag lines are among all lines of the groups, in the same order. -/
theorem TagGroup.tagLines_sublist_lineNumbers (groups : List TagGroup) :
    (groups.map (·.tagLine)).Sublist (groups.flatMap lineNumbers) := by
  induction groups with
  | nil => exact .refl _
  | cons group groups ih =>
      rw [List.map_cons, List.flatMap_cons, lineNumbers, List.cons_append]
      exact (ih.trans (List.sublist_append_right _ _)).cons_cons group.tagLine

/-- Later blocks of a kind are noted one by one, and the repeated keys of the first block after
them. -/
theorem TemplateBlock.diagnostics_noticesOfGroups (kind : TagKind) (first : TagGroup)
    (later : List TagGroup) :
    Notice.diagnostics (noticesOfGroups kind (first :: later)) =
      later.map (fun group => .laterSection group.tagLine kind first.tagLine) ++
        Notice.diagnostics (repeats [] (assignedKeys first.body)) := by
  rw [noticesOfGroups, Notice.diagnostics_append]
  congr 1
  rw [Notice.diagnostics, List.filterMap_map]
  exact congrFun List.filterMap_eq_map later

/-- The first tag and the diagnostics of a block stand on lines of its groups, each on one of its
own. -/
theorem TemplateBlock.count_lines_le (kind : TagKind) (groups : List TagGroup) (i : Nat) :
    ((ofGroups groups).toList.map (·.tagLine)).count i +
        ((Notice.diagnostics (noticesOfGroups kind groups)).map (·.line)).count i ≤
      (groups.flatMap TagGroup.lineNumbers).count i := by
  cases groups with
  | nil => exact Nat.le_refl _
  | cons first later =>
      have hlater := (TagGroup.tagLines_sublist_lineNumbers later).count_le i
      have hbody := ((lines_repeats_sublist [] _).trans
        (fst_assignedKeys_sublist first.body)).count_le i
      rw [diagnostics_noticesOfGroups, List.map_append, List.map_map, ofGroups,
        List.flatMap_cons, TagGroup.lineNumbers, List.cons_append, List.count_cons,
        List.count_append, List.count_append, Option.toList_some, List.map_singleton,
        List.count_singleton]
      dsimp only [Function.comp_def, Diagnostic.laterSection]
      omega

namespace Document

/-- The diagnostic of an overwriting block that the options do not honour. -/
def ignoredBlock (d : Document) (options : LoadOptions) : List Diagnostic :=
  ((d.block? .overwritten).toList.filter fun _ => !options.legacyOverwritten).map fun block =>
    .ignoredBlock block.tagLine

/-- The diagnostics in the order in which reading gives them. -/
theorem diagnostics_sectionNotices (d : Document) (options : LoadOptions) :
    let sections := Sections.ofLines d.lines
    Notice.diagnostics (d.sectionNotices options) =
      Notice.diagnostics sections.notices
        ++ Notice.diagnostics
          (TemplateBlock.noticesOfGroups .template (sections.groups .template))
        ++ Notice.diagnostics
          (TemplateBlock.noticesOfGroups .overwritten (sections.groups .overwritten))
        ++ (sections.groups .mode).filterMap (TagGroup.refusal? ModeId.ofPayload)
        ++ (sections.groups .value).filterMap (TagGroup.refusal? ValueSpec.ofPayload)
        ++ d.ignoredBlock options := by
  intro sections
  simp only [sectionNotices, Notice.diagnostics_append]
  rw [Modes.noticesOfGroups, Modes.diagnostics_noticesFrom, Constraints.noticesOfGroups,
    Constraints.diagnostics_noticesFrom]
  congr 1
  rw [ignoredBlock]
  cases d.block? .overwritten with
  | none => rfl
  | some block => cases hoptions : options.legacyOverwritten <;> rfl

/-- Sections hold a line once, so no line has two diagnostics. -/
theorem nodup_lines (d : Document) (options : LoadOptions) :
    ((Notice.diagnostics (d.sectionNotices options)).map (·.line)).Nodup := by
  have honce := (Sections.partitions_ofLines d.lines).once.nodup_iff.2 List.nodup_range
  rw [List.nodup_iff_count_le_one] at honce ⊢
  intro i
  have hheld := honce i
  have htemplate := TemplateBlock.count_lines_le .template
    ((Sections.ofLines d.lines).groups .template) i
  have hoverwritten := TemplateBlock.count_lines_le .overwritten
    ((Sections.ofLines d.lines).groups .overwritten) i
  have hmodes := ((TagGroup.lines_refusals_sublist ModeId.ofPayload
    ((Sections.ofLines d.lines).groups .mode)).trans
      (TagGroup.tagLines_sublist_lineNumbers _)).count_le i
  have hvalues := ((TagGroup.lines_refusals_sublist ValueSpec.ofPayload
    ((Sections.ofLines d.lines).groups .value)).trans
      (TagGroup.tagLines_sublist_lineNumbers _)).count_le i
  have hignored : ((d.ignoredBlock options).map (·.line)).count i ≤
      ((d.block? .overwritten).toList.map (·.tagLine)).count i := by
    rw [ignoredBlock, List.map_map]
    exact (List.filter_sublist.map TemplateBlock.tagLine).count_le i
  simp only [Sections.lineNumbers, TagKind.all, List.flatMap_cons, List.flatMap_nil,
    List.append_nil, List.flatMap_append, List.count_append] at hheld
  simp only [diagnostics_sectionNotices, List.map_append, List.count_append]
  rw [block?] at hignored
  omega

/-! ### First tags and their bodies -/

variable {d : Document} {kind : TagKind} {t : Nat}

/-- The groups of a kind are the tags of that kind, each with what stands behind it. -/
theorem mem_groups_iff {group : TagGroup} :
    group ∈ (Sections.ofLines d.lines).groups kind ↔
      d.TagAt group.tagLine group.tag ∧ group.tag.kind = kind ∧
        group.body = d.bodyAt group.tagLine :=
  Sections.mem_groups_ofLines_iff

theorem firstTag_of_groups {first : TagGroup} {later : List TagGroup}
    (h : (Sections.ofLines d.lines).groups kind = first :: later) :
    d.FirstTag kind first.tagLine := by
  have hsorted := Sections.pairwise_groups_ofLines d.lines kind
  rw [h] at hsorted
  have hfirst := mem_groups_iff.1 (h ▸ List.mem_cons_self)
  refine ⟨⟨first.tag, hfirst.1, hfirst.2.1⟩, fun j tag htag hkind => ?_⟩
  have hmem : ⟨j, tag, d.bodyAt j⟩ ∈ first :: later :=
    h ▸ mem_groups_iff.2 ⟨htag, hkind, rfl⟩
  rcases List.mem_cons.1 hmem with heq | hlater
  · rw [← heq]
  · exact Nat.le_of_lt ((List.pairwise_cons.1 hsorted).1 _ hlater)

/-- There is one first tag of a kind at most. -/
theorem FirstTag.unique {i : Nat} (h : d.FirstTag kind t) (h' : d.FirstTag kind i) : t = i := by
  obtain ⟨tag, htag, hkind⟩ := h.tagged
  obtain ⟨tag', htag', hkind'⟩ := h'.tagged
  exact Nat.le_antisymm (h.first i tag' htag' hkind') (h'.first t tag htag hkind)

/-- The group of the first tag is the first one of its kind. -/
theorem FirstTag.exists_groups (h : d.FirstTag kind t) :
    ∃ first later, (Sections.ofLines d.lines).groups kind = first :: later ∧
      first.tagLine = t ∧ first.body = d.bodyAt t := by
  obtain ⟨tag, htag, hkind⟩ := h.tagged
  cases hgroups : (Sections.ofLines d.lines).groups kind with
  | nil =>
      have hmem : ⟨t, tag, d.bodyAt t⟩ ∈ (Sections.ofLines d.lines).groups kind :=
        mem_groups_iff.2 ⟨htag, hkind, rfl⟩
      rw [hgroups] at hmem
      exact absurd hmem (by simp)
  | cons first later =>
      have hline : first.tagLine = t := (firstTag_of_groups hgroups).unique h
      have hbody := (mem_groups_iff.1 (hgroups ▸ List.mem_cons_self)).2.2
      exact ⟨first, later, rfl, hline, hline ▸ hbody⟩

/-- The lines of a body stand in order. -/
theorem pairwise_bodyAt (d : Document) (t : Nat) :
    (d.bodyAt t).Pairwise (·.index < ·.index) :=
  (NumberedLine.pairwise_numbered 0 d.lines).sublist
    ((plainUntilTag_sublist _).trans (List.drop_sublist _ _))

theorem lt_of_mem_bodyAt {line : NumberedLine} (h : line ∈ d.bodyAt t) : t < line.index :=
  (NumberedLine.mem_drop_numbered_iff.1 ((plainUntilTag_sublist _).subset h)).1

/-- A body ends in front of the next tag. -/
theorem lt_of_tagAt {line : NumberedLine} (h : line ∈ d.bodyAt t) {i : Nat} {tag : Tag}
    (htag : d.TagAt i tag) (hlt : t < i) : line.index < i := by
  obtain ⟨text, htext, hscan⟩ := htag
  have hmem : ⟨i, text⟩ ∈ (NumberedLine.numbered 0 d.lines).drop (t + 1) :=
    NumberedLine.mem_drop_numbered_iff.2 ⟨hlt, htext⟩
  have hsorted := (NumberedLine.pairwise_numbered 0 d.lines).sublist (List.drop_sublist (t + 1) _)
  rw [← List.takeWhile_append_dropWhile (p := fun l => !isTagged l.text)
    (l := (NumberedLine.numbered 0 d.lines).drop (t + 1))] at hmem hsorted
  rcases List.mem_append.1 hmem with hbefore | hbehind
  · have huntagged := List.all_eq_true.1 List.all_takeWhile _ hbefore
    simp [isTagged, hscan] at huntagged
  · exact (List.pairwise_append.1 hsorted).2.2 line (List.mem_filter.1 h).1 _ hbehind

/-- No line is in the bodies of two tags. -/
theorem eq_of_mem_bodyAt {line line' : NumberedLine} {i : Nat} {tag tag' : Tag}
    (h : line ∈ d.bodyAt t) (h' : line' ∈ d.bodyAt i) (htag : d.TagAt t tag)
    (htag' : d.TagAt i tag') (hindex : line.index = line'.index) : t = i := by
  have hlt := lt_of_mem_bodyAt h
  have hlt' := lt_of_mem_bodyAt h'
  rcases Nat.lt_trichotomy t i with hless | heq | hgreater
  · have hbefore := lt_of_tagAt h htag' hless
    omega
  · exact heq
  · have hbefore := lt_of_tagAt h' htag hgreater
    omega

/-! ### What is found -/

theorem pairwise_assignedKeys (d : Document) (t : Nat) :
    (assignedKeys (d.bodyAt t)).Pairwise (·.1 < ·.1) := by
  have hindices := List.pairwise_map.2 (pairwise_bodyAt d t)
  exact List.pairwise_map.1
    (hindices.sublist (TemplateBlock.fst_assignedKeys_sublist (d.bodyAt t)))

/-- Looking a key up among the lines of a body finds the line that assigns it first. -/
theorem find?_assignedKeys_iff {key : String} {n : Nat} :
    Pairs.find? key ((assignedKeys (d.bodyAt t)).map Prod.swap) = some n ↔
      ∃ line, d.FirstAssigns t key line ∧ line.index = n := by
  rw [Pairs.find?_swap_eq_some_iff (pairwise_assignedKeys d t),
    TemplateBlock.mem_assignedKeys_iff]
  constructor
  · rintro ⟨⟨line, hmem, rfl, hassigns⟩, hleast⟩
    refine ⟨line, ⟨hmem, hassigns, fun other hother hkey => ?_⟩, rfl⟩
    exact hleast _ (TemplateBlock.mem_assignedKeys_iff.2 ⟨other, hother, rfl, hkey⟩)
  · rintro ⟨line, hfirst, rfl⟩
    refine ⟨⟨line, hfirst.mem, rfl, hfirst.assigns⟩, fun n hn => ?_⟩
    obtain ⟨other, hother, rfl, hkey⟩ := TemplateBlock.mem_assignedKeys_iff.1 hn
    exact hfirst.first other hother hkey

variable {options : LoadOptions} {diagnostic : Diagnostic}

/-- A repeated key is noted for each line that assigns a key again, with the first line that does.
-/
theorem mem_diagnostics_body_iff :
    diagnostic ∈ Notice.diagnostics (repeats [] (assignedKeys (d.bodyAt t))) ↔
      ∃ line ∈ d.bodyAt t, ∃ key earlier, line.Assigns key ∧ d.FirstAssigns t key earlier ∧
        earlier.index < line.index ∧
        diagnostic = .repeatedKey line.index key earlier.index := by
  rw [TemplateBlock.mem_diagnostics_repeats_iff (pairwise_assignedKeys d t)]
  simp only [find?_assignedKeys_iff, TemplateBlock.mem_assignedKeys_iff]
  constructor
  · rintro ⟨_, key, _, ⟨line, hmem, rfl, hkey⟩, ⟨earlier, hfirst, rfl⟩, hbefore, rfl⟩
    exact ⟨line, hmem, key, earlier, hkey, hfirst, hbefore, rfl⟩
  · rintro ⟨line, hmem, key, earlier, hkey, hfirst, hbefore, rfl⟩
    exact ⟨_, key, _, ⟨line, hmem, rfl, hkey⟩, ⟨earlier, hfirst, rfl⟩, hbefore, rfl⟩

/-- The diagnostics of a kind of which only the first group counts. -/
theorem mem_diagnostics_block_iff :
    diagnostic ∈ Notice.diagnostics
        (TemplateBlock.noticesOfGroups kind ((Sections.ofLines d.lines).groups kind)) ↔
      ∃ first, d.FirstTag kind first ∧
        ((∃ i tag, d.TagAt i tag ∧ tag.kind = kind ∧ first < i ∧
            diagnostic = .laterSection i kind first) ∨
          diagnostic ∈ Notice.diagnostics (repeats [] (assignedKeys (d.bodyAt first)))) := by
  have hsorted := Sections.pairwise_groups_ofLines d.lines kind
  constructor
  · intro hmem
    cases hgroups : (Sections.ofLines d.lines).groups kind with
    | nil =>
        rw [hgroups] at hmem
        exact absurd hmem (by simp [TemplateBlock.noticesOfGroups, Notice.diagnostics])
    | cons first later =>
        have hfirst := firstTag_of_groups hgroups
        obtain ⟨_, _, hbody⟩ := mem_groups_iff.1 (hgroups ▸ List.mem_cons_self)
        rw [hgroups, TemplateBlock.diagnostics_noticesOfGroups, List.mem_append, List.mem_map,
          hbody] at hmem
        refine ⟨first.tagLine, hfirst, hmem.imp_left ?_⟩
        rintro ⟨group, hgroup, rfl⟩
        obtain ⟨htag, hkind, _⟩ := mem_groups_iff.1 (hgroups ▸ List.mem_cons_of_mem first hgroup)
        rw [hgroups] at hsorted
        exact ⟨group.tagLine, group.tag, htag, hkind,
          (List.pairwise_cons.1 hsorted).1 group hgroup, rfl⟩
  · rintro ⟨_, hfirst, hmem⟩
    obtain ⟨first, later, hgroups, rfl, hbody⟩ := hfirst.exists_groups
    rw [hgroups, TemplateBlock.diagnostics_noticesOfGroups, List.mem_append, List.mem_map, hbody]
    refine hmem.imp_left ?_
    rintro ⟨i, tag, htag, hkind, hlt, rfl⟩
    have hgroup : ⟨i, tag, d.bodyAt i⟩ ∈ first :: later :=
      hgroups ▸ mem_groups_iff.2 ⟨htag, hkind, rfl⟩
    refine ⟨_, (List.mem_cons.1 hgroup).resolve_left fun heq => ?_, rfl⟩
    rw [← heq] at hlt
    exact Nat.lt_irrefl _ hlt

/-- Each tag of a kind whose payload cannot be read is refused, and nothing else is. -/
theorem mem_refusals_iff {α : Type} {read : Option String → Except TagError α} :
    diagnostic ∈ ((Sections.ofLines d.lines).groups kind).filterMap (TagGroup.refusal? read) ↔
      ∃ i tag e, d.TagAt i tag ∧ tag.kind = kind ∧ read tag.payload = .error e ∧
        diagnostic = .refused i e := by
  simp only [List.mem_filterMap, TagGroup.refusal?_eq_some_iff, mem_groups_iff]
  constructor
  · rintro ⟨group, ⟨htag, hkind, _⟩, e, hrefused, rfl⟩
    exact ⟨group.tagLine, group.tag, e, htag, hkind, hrefused, rfl⟩
  · rintro ⟨i, tag, e, htag, hkind, hrefused, rfl⟩
    exact ⟨⟨i, tag, d.bodyAt i⟩, ⟨htag, hkind, rfl⟩, e, hrefused, rfl⟩

/-- An overwriting block is noted as ignored exactly if there is one and the options do not take it.
-/
theorem mem_ignoredBlock_iff :
    diagnostic ∈ d.ignoredBlock options ↔
      ∃ i, d.FirstTag .overwritten i ∧ options.legacyOverwritten = false ∧
        diagnostic = .ignoredBlock i := by
  rw [ignoredBlock, block?, List.mem_map]
  constructor
  · rintro ⟨block, hmem, rfl⟩
    obtain ⟨hblock, hoff⟩ := List.mem_filter.1 hmem
    cases hgroups : (Sections.ofLines d.lines).groups .overwritten with
    | nil =>
        rw [hgroups] at hblock
        exact absurd hblock (by simp [TemplateBlock.ofGroups])
    | cons first later =>
        rw [hgroups, TemplateBlock.ofGroups, Option.toList_some, List.mem_singleton] at hblock
        rw [hblock]
        exact ⟨first.tagLine, firstTag_of_groups hgroups, by simpa using hoff, rfl⟩
  · rintro ⟨_, hfirst, hoff, rfl⟩
    obtain ⟨first, later, hgroups, rfl, _⟩ := hfirst.exists_groups
    rw [hgroups, TemplateBlock.ofGroups, hoff]
    exact ⟨_, List.mem_filter.2 ⟨List.mem_singleton_self _, rfl⟩, rfl⟩

/-- Each line with an unknown tag is noted with the name it has. -/
theorem mem_diagnostics_unknown_iff :
    diagnostic ∈ Notice.diagnostics (Sections.ofLines d.lines).notices ↔
      ∃ i line name, d.line? i = some line ∧ scanLine line = .unknown name ∧
        diagnostic = .unknownName i name := by
  rw [Sections.diagnostics_notices, List.mem_map]
  constructor
  · rintro ⟨⟨i, name⟩, hmem, rfl⟩
    obtain ⟨line, hline, hscan⟩ := Sections.mem_unknownTags_ofLines_iff.1 hmem
    exact ⟨i, line, name, hline, hscan, rfl⟩
  · rintro ⟨i, line, name, hline, hscan, rfl⟩
    exact ⟨(i, name), Sections.mem_unknownTags_ofLines_iff.2 ⟨line, hline, hscan⟩, rfl⟩

/-- What a block calls for is noticed when its kind is read. -/
theorem callsFor_of_block (hblock : kind.HoldsBlock)
    (h : diagnostic ∈ Notice.diagnostics
      (TemplateBlock.noticesOfGroups kind ((Sections.ofLines d.lines).groups kind))) :
    d.CallsFor options diagnostic := by
  obtain ⟨first, hfirst, ⟨i, tag, htag, rfl, hlt, rfl⟩ | hbody⟩ := mem_diagnostics_block_iff.1 h
  · exact .laterSection htag hblock hfirst hlt
  · obtain ⟨line, hmem, key, earlier, hkey, hbefore, hlt, rfl⟩ := mem_diagnostics_body_iff.1 hbody
    exact .repeatedKey hblock hfirst hmem hkey hbefore hlt

/-- Reading notices what calls for a diagnostic, and nothing else of concern. -/
theorem mem_diagnostics_iff :
    diagnostic ∈ Notice.diagnostics (d.sectionNotices options) ↔
      d.CallsFor options diagnostic := by
  simp only [diagnostics_sectionNotices, List.mem_append, or_assoc]
  constructor
  · rintro (h | h | h | h | h | h)
    · obtain ⟨i, line, name, hline, hscan, rfl⟩ := mem_diagnostics_unknown_iff.1 h
      exact .unknownName hline hscan
    · exact callsFor_of_block (Or.inl rfl) h
    · exact callsFor_of_block (Or.inr rfl) h
    · obtain ⟨i, tag, e, htag, hkind, hrefused, rfl⟩ := mem_refusals_iff.1 h
      exact .refusedMode htag hkind hrefused
    · obtain ⟨i, tag, e, htag, hkind, hrefused, rfl⟩ := mem_refusals_iff.1 h
      exact .refusedValue htag hkind hrefused
    · obtain ⟨i, hfirst, hoff, rfl⟩ := mem_ignoredBlock_iff.1 h
      exact .ignoredBlock hfirst hoff
  · intro h
    cases h with
    | unknownName at_line scan =>
        exact Or.inl (mem_diagnostics_unknown_iff.2 ⟨_, _, _, at_line, scan, rfl⟩)
    | refusedMode tagged kind refused =>
        have hmem := mem_refusals_iff.2 ⟨_, _, _, tagged, kind, refused, rfl⟩
        exact Or.inr (Or.inr (Or.inr (Or.inl hmem)))
    | refusedValue tagged kind refused =>
        have hmem := mem_refusals_iff.2 ⟨_, _, _, tagged, kind, refused, rfl⟩
        exact Or.inr (Or.inr (Or.inr (Or.inr (Or.inl hmem))))
    | @laterSection i first tag tagged block earlier later =>
        have hmem := mem_diagnostics_block_iff.2
          ⟨first, earlier, Or.inl ⟨i, tag, tagged, rfl, later, rfl⟩⟩
        rcases block with hkind | hkind
        · rw [hkind] at hmem ⊢
          exact Or.inr (Or.inl hmem)
        · rw [hkind] at hmem ⊢
          exact Or.inr (Or.inr (Or.inl hmem))
    | ignoredBlock first off =>
        have hmem := mem_ignoredBlock_iff.2 ⟨_, first, off, rfl⟩
        exact Or.inr (Or.inr (Or.inr (Or.inr (Or.inr hmem))))
    | repeatedKey block first mem assigns before later =>
        have hbody := mem_diagnostics_body_iff.2 ⟨_, mem, _, _, assigns, before, later, rfl⟩
        have hmem := mem_diagnostics_block_iff.2 ⟨_, first, Or.inr hbody⟩
        rcases block with rfl | rfl
        · exact Or.inr (Or.inl hmem)
        · exact Or.inr (Or.inr (Or.inl hmem))

/-- The diagnostics of repeated keys on the lines of a body are those of reading it. -/
theorem mem_filter_body_iff (hkind : kind.HoldsBlock) (hfirst : d.FirstTag kind t) :
    (d.CallsFor options diagnostic ∧ diagnostic.kind = .duplicateKey ∧
        diagnostic.line ∈ (d.bodyAt t).map (·.index)) ↔
      diagnostic ∈ Notice.diagnostics (repeats [] (assignedKeys (d.bodyAt t))) := by
  rw [mem_diagnostics_body_iff]
  constructor
  · rintro ⟨hcalls, hduplicate, hline⟩
    cases hcalls with
    | unknownName => exact nomatch hduplicate
    | refusedMode => exact nomatch hduplicate
    | refusedValue => exact nomatch hduplicate
    | laterSection => exact nomatch hduplicate
    | ignoredBlock => exact nomatch hduplicate
    | @repeatedKey kind' t' line earlier key block first mem assigns before later =>
        obtain ⟨line', hmem', hindex⟩ := List.mem_map.1 hline
        obtain ⟨tag, htag, _⟩ := hfirst.tagged
        obtain ⟨tag', htag', _⟩ := first.tagged
        obtain rfl : t = t' := eq_of_mem_bodyAt hmem' mem htag htag' hindex
        exact ⟨line, mem, key, earlier, assigns, before, later, rfl⟩
  · rintro ⟨line, hmem, key, earlier, hkey, hbefore, hlt, rfl⟩
    exact ⟨.repeatedKey hkind hfirst hmem hkey hbefore hlt, rfl, List.mem_map_of_mem hmem⟩

end Document

namespace Loaded

/-- No line has two diagnostics, and they come in the order of the lines. -/
theorem pairwise_diagnostics (d : Document) (options : LoadOptions) :
    (ofDocument d options).diagnostics.Pairwise (·.line < ·.line) := by
  rw [diagnostics_ofDocument]
  have hsorted := pairwise_sortByLine (Notice.diagnostics (d.sectionNotices options))
  have hnodup := ((sortByLine_perm _).map Diagnostic.line).nodup_iff.2 (d.nodup_lines options)
  exact hsorted.imp₂ (fun _ _ => Nat.lt_of_le_of_ne) (List.pairwise_map.1 hnodup)

theorem mem_diagnostics_iff {d : Document} {options : LoadOptions} {diagnostic : Diagnostic} :
    diagnostic ∈ (ofDocument d options).diagnostics ↔ d.CallsFor options diagnostic := by
  rw [diagnostics_ofDocument, (sortByLine_perm _).mem_iff, Document.mem_diagnostics_iff]

/-- The diagnostics of a document are exact: in the order of their lines, at most one on a line, and
one exactly where the lines call for it. -/
theorem diagnostics_exact (d : Document) (options : LoadOptions) :
    d.ExactDiagnostics options (ofDocument d options).diagnostics where
  ordered := pairwise_diagnostics d options
  mem_iff := fun _ => mem_diagnostics_iff
  counted := by
    intro kind t hkind hfirst
    let inBody : Diagnostic → Prop := fun diagnostic =>
      diagnostic.kind = .duplicateKey ∧ diagnostic.line ∈ (d.bodyAt t).map (·.index)
    let found := Notice.diagnostics (repeats [] (assignedKeys (d.bodyAt t)))
    have hnodup : (ofDocument d options).diagnostics.Nodup :=
      (pairwise_diagnostics d options).imp fun hlt heq => Nat.ne_of_lt hlt (congrArg _ heq)
    have hlines : (found.map (·.line)).Pairwise (· < ·) :=
      (List.pairwise_map.2 (Document.pairwise_assignedKeys d t)).sublist
        (TemplateBlock.lines_repeats_sublist [] _)
    have hfound : found.Nodup :=
      (List.pairwise_map.1 hlines).imp fun hlt heq => Nat.ne_of_lt hlt (congrArg _ heq)
    have hperm : ((ofDocument d options).diagnostics.filter inBody).Perm found := by
      refine (List.perm_ext_iff_of_nodup (hnodup.filter _) hfound).2 fun diagnostic => ?_
      rw [List.mem_filter, decide_eq_true_iff, mem_diagnostics_iff,
        Document.mem_filter_body_iff hkind hfirst]
    have hcount := TemplateBlock.length_diagnostics_repeats [] (assignedKeys (d.bodyAt t))
    rw [List.map_nil, List.toFinset_nil, Finset.sdiff_empty, ← hperm.length_eq] at hcount
    exact hcount

/-- A document that calls for a diagnostic of every kind. -/
example : ((ofDocument (.ofLines ["// @env-templte", "// @env-template", "A=1", "B=2", "A=3",
      "// @env-mode:fast", "// @env-template", "A=4", "// @env-overwritten", "B=5", "B=6"])
      {}).diagnostics.map fun diagnostic => (diagnostic.line, diagnostic.kind)) =
    [(0, .malformedTag), (4, .duplicateKey), (5, .malformedTag), (6, .duplicateTemplate),
      (8, .legacySectionIgnored), (10, .duplicateKey)] := by
  decide +kernel

end Loaded

end AnnotatedEnv
