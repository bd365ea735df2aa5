/-
Module: AnnotatedEnv.Proofs.Partition
Purpose: Cutting lines at their tags loses no line and uses none twice.
Main exports: plainUntilTag, Sections.preamble_ofNumbered, Sections.mem_allGroups_iff,
  Sections.mem_unknownTags_iff, Sections.lineNumbers, Sections.mem_groups_ofLines_iff,
  Sections.Partitions, Sections.every_line_in_one_place
-/
import AnnotatedEnv.Proofs.ForwardPass

namespace AnnotatedEnv

/-! ### Numbered lines -/

namespace NumberedLine

theorem pairwise_numbered (i : Nat) (lines : List String) :
    (numbered i lines).Pairwise (·.index < ·.index) := by
  have hindices := List.pairwise_lt_range' 1 (s := i) (n := lines.length)
  rw [← map_index_numbered] at hindices
  exact List.pairwise_map.1 hindices

/-- The lines from a number on, each with its own text. -/
theorem mem_drop_numbered_iff {lines : List String} {n : Nat} {line : NumberedLine} :
    line ∈ (numbered 0 lines).drop n ↔ n ≤ line.index ∧ lines[line.index]? = some line.text := by
  obtain ⟨index, text⟩ := line
  simp only [List.mem_iff_getElem?, List.getElem?_drop, getElem?_numbered, Nat.zero_add,
    Option.map_eq_some_iff, NumberedLine.mk.injEq]
  constructor
  · rintro ⟨i, _, htext, rfl, rfl⟩
    exact ⟨Nat.le_add_right n i, htext⟩
  · rintro ⟨hle, htext⟩
    obtain ⟨i, rfl⟩ := Nat.exists_eq_add_of_le hle
    exact ⟨i, text, htext, rfl, rfl⟩

/-- The numbered lines of a document are its lines at their places. -/
theorem mem_numbered_zero_iff {lines : List String} {line : NumberedLine} :
    line ∈ numbered 0 lines ↔ lines[line.index]? = some line.text := by
  have hall := @mem_drop_numbered_iff lines 0 line
  simpa using hall

/-- Where a line of a document stands, and what follows it. -/
theorem cons_suffix_numbered_iff {lines : List String} {line : NumberedLine}
    {back : List NumberedLine} :
    line :: back <:+ numbered 0 lines ↔
      lines[line.index]? = some line.text ∧ back = (numbered 0 lines).drop (line.index + 1) := by
  constructor
  · rintro ⟨front, hfront⟩
    have hat : (numbered 0 lines)[front.length]? = some line := by simp [← hfront]
    rw [getElem?_numbered, Nat.zero_add, Option.map_eq_some_iff] at hat
    obtain ⟨text, htext, rfl⟩ := hat
    refine ⟨htext, ?_⟩
    rw [← hfront, List.drop_append, List.drop_of_length_le (by simp)]
    simp
  · rintro ⟨htext, rfl⟩
    have hat : (numbered 0 lines)[line.index]? = some line := by
      rw [getElem?_numbered, htext, Nat.zero_add]
      rfl
    obtain ⟨hlt, hline⟩ := List.getElem?_eq_some_iff.1 hat
    have hdrop := List.drop_eq_getElem_cons hlt
    rw [hline] at hdrop
    exact hdrop ▸ List.drop_suffix line.index (numbered 0 lines)

end NumberedLine

/-- The plain lines up to the first tag. -/
def plainUntilTag (lines : List NumberedLine) : List NumberedLine :=
  (lines.takeWhile fun line => !isTagged line.text).filter fun line => isPlain line.text

theorem plainUntilTag_sublist (lines : List NumberedLine) :
    (plainUntilTag lines).Sublist lines :=
  List.filter_sublist.trans (List.takeWhile_sublist _)

namespace Sections

/-! ### Where the lines go -/

/-- The preamble is what stands in front of the first tag. -/
theorem preamble_ofNumbered (lines : List NumberedLine) :
    (ofNumbered lines).preamble = plainUntilTag lines := by
  induction lines with
  | nil => rfl
  | cons line lines ih =>
      simp only [plainUntilTag] at ih ⊢
      cases hscan : scanLine line.text <;> simp [ofNumbered, isTagged, isPlain, hscan, ih]

/-- The groups are the tag lines, each with the plain lines up to the next tag. -/
theorem mem_allGroups_iff {lines : List NumberedLine} {group : TagGroup} :
    group ∈ (ofNumbered lines).allGroups ↔
      ∃ line back, line :: back <:+ lines ∧ scanLine line.text = .tag group.tag ∧
        group.tagLine = line.index ∧ group.body = plainUntilTag back := by
  induction lines with
  | nil => simp [ofNumbered]
  | cons first lines ih =>
      simp only [List.suffix_cons_iff, List.cons.injEq, or_and_right, exists_or, and_assoc]
      cases hscan : scanLine first.text with
      | plain => simp [ofNumbered, hscan, ih]
      | unknown name => simp [ofNumbered, hscan, ih]
      | tag tag =>
          rw [ofNumbered, hscan, List.mem_cons, ih, preamble_ofNumbered]
          refine or_congr ⟨?_, ?_⟩ Iff.rfl
          · rintro rfl
            exact ⟨first, lines, rfl, rfl, hscan, rfl, rfl⟩
          · rintro ⟨line, back, rfl, rfl, htag, hline, hbody⟩
            obtain rfl : tag = group.tag := LineScan.tag.inj (hscan.symm.trans htag)
            rw [← hline, ← hbody]

/-- The unknown tags are the lines that are scanned as such. -/
theorem mem_unknownTags_iff {lines : List NumberedLine} {i : Nat} {name : String} :
    (i, name) ∈ (ofNumbered lines).unknownTags ↔
      ∃ line ∈ lines, scanLine line.text = .unknown name ∧ line.index = i := by
  induction lines with
  | nil => simp [ofNumbered]
  | cons line lines ih =>
      cases hscan : scanLine line.text with
      | plain => simp [ofNumbered, hscan, ih]
      | tag tag => simp [ofNumbered, hscan, ih]
      | unknown other => simp [ofNumbered, hscan, ih, eq_comm, and_comm]

theorem tagLines_sublist (lines : List NumberedLine) :
    ((ofNumbered lines).allGroups.map (·.tagLine)).Sublist (lines.map (·.index)) := by
  induction lines with
  | nil => exact .refl _
  | cons line lines ih =>
      cases hscan : scanLine line.text with
      | plain => simpa [ofNumbered, hscan] using ih.cons line.index
      | unknown name => simpa [ofNumbered, hscan] using ih.cons line.index
      | tag tag => simpa [ofNumbered, hscan] using ih.cons_cons line.index

/-! ### Every line once -/

end Sections

/-- The lines of a group, by their numbers. -/
def TagGroup.lineNumbers (group : TagGroup) : List Nat :=
  group.tagLine :: group.body.map (·.index)

namespace Sections

/-- The lines that sections hold, by their numbers: in the preamble, in the groups of the four
kinds, and in the diagnostics of unknown tags. -/
def lineNumbers (sections : Sections) : List Nat :=
  sections.preamble.map (·.index)
    ++ (TagKind.all.flatMap sections.groups).flatMap TagGroup.lineNumbers
    ++ (Notice.diagnostics sections.notices).map (·.line)

/-- Each unknown tag makes one diagnostic, with its name in the wording. -/
theorem diagnostics_notices (sections : Sections) :
    Notice.diagnostics sections.notices = sections.unknownTags.map fun (line, name) =>
      ⟨line, .malformedTag, (TagError.unknownName name).message⟩ := by
  simp [Notice.diagnostics, notices, List.filterMap_map, Function.comp_def, Notice.diagnostic?]

/-- Taking the groups kind by kind only changes their order. -/
theorem groups_perm (sections : Sections) :
    (TagKind.all.flatMap sections.groups).Perm sections.allGroups := by
  rw [List.perm_iff_count]
  intro group
  have hcount : ∀ kind, (sections.groups kind).count group =
      if group.tag.kind = kind then sections.allGroups.count group else 0 := by
    intro kind
    split
    · next hkind => exact List.count_filter (by simpa using hkind)
    · next hkind =>
      exact List.count_eq_zero.2 fun hmem => hkind (by simpa using (List.mem_filter.1 hmem).2)
  cases hkind : group.tag.kind <;> simp [TagKind.all, hcount, hkind]

/-- No line is lost and none is taken twice. -/
theorem allGroups_perm (lines : List NumberedLine) :
    ((ofNumbered lines).preamble.map (·.index)
        ++ (ofNumbered lines).allGroups.flatMap TagGroup.lineNumbers
        ++ (ofNumbered lines).unknownTags.map Prod.fst).Perm (lines.map (·.index)) := by
  induction lines with
  | nil => exact .refl _
  | cons line lines ih =>
      have hnext := ih.cons line.index
      cases hscan : scanLine line.text with
      | plain => simpa [ofNumbered, hscan] using hnext
      | tag tag => simpa [ofNumbered, hscan, TagGroup.lineNumbers] using hnext
      | unknown name =>
          simp only [ofNumbered, hscan, List.map_cons]
          exact List.perm_middle.trans hnext

/-- Every line is held once, whatever it says. -/
theorem lineNumbers_perm (lines : List NumberedLine) :
    (ofNumbered lines).lineNumbers.Perm (lines.map (·.index)) := by
  have hgroups := (groups_perm (ofNumbered lines)).flatMap_right TagGroup.lineNumbers
  have hunknown : (Notice.diagnostics (ofNumbered lines).notices).map (·.line) =
      (ofNumbered lines).unknownTags.map Prod.fst := by
    simp [diagnostics_notices, Function.comp_def]
  rw [lineNumbers, hunknown]
  exact ((hgroups.append_left _).append_right _).trans (allGroups_perm lines)

/-! ### The sections of a document -/

/-- The groups of a document stand at its lines with a tag of their kind. -/
theorem mem_groups_ofLines_iff {lines : List String} {kind : TagKind} {group : TagGroup} :
    group ∈ (ofLines lines).groups kind ↔
      (∃ text, lines[group.tagLine]? = some text ∧ scanLine text = .tag group.tag) ∧
        group.tag.kind = kind ∧
        group.body = plainUntilTag ((NumberedLine.numbered 0 lines).drop (group.tagLine + 1)) := by
  rw [groups, List.mem_filter, ofLines, ofLinesFrom_eq_ofNumbered, mem_allGroups_iff]
  simp only [decide_eq_true_eq, NumberedLine.cons_suffix_numbered_iff]
  constructor
  · rintro ⟨⟨line, back, ⟨htext, rfl⟩, htag, hline, hbody⟩, hkind⟩
    rw [hline]
    exact ⟨⟨line.text, htext, htag⟩, hkind, hbody⟩
  · rintro ⟨⟨text, htext, htag⟩, hkind, hbody⟩
    exact ⟨⟨⟨group.tagLine, text⟩, _, ⟨htext, rfl⟩, htag, rfl, hbody⟩, hkind⟩

theorem mem_unknownTags_ofLines_iff {lines : List String} {i : Nat} {name : String} :
    (i, name) ∈ (ofLines lines).unknownTags ↔
      ∃ text, lines[i]? = some text ∧ scanLine text = .unknown name := by
  rw [ofLines, ofLinesFrom_eq_ofNumbered, mem_unknownTags_iff]
  simp only [NumberedLine.mem_numbered_zero_iff]
  constructor
  · rintro ⟨line, htext, hscan, rfl⟩
    exact ⟨line.text, htext, hscan⟩
  · rintro ⟨text, htext, hscan⟩
    exact ⟨⟨i, text⟩, htext, hscan, rfl⟩

/-- The groups of a kind stand in the order of their tags. -/
theorem pairwise_groups_ofLines (lines : List String) (kind : TagKind) :
    ((ofLines lines).groups kind).Pairwise (·.tagLine < ·.tagLine) := by
  have hsorted : ((ofLines lines).allGroups.map (·.tagLine)).Pairwise (· < ·) := by
    rw [ofLines, ofLinesFrom_eq_ofNumbered]
    refine List.Pairwise.sublist (tagLines_sublist _) ?_
    rw [NumberedLine.map_index_numbered]
    exact List.pairwise_lt_range' 1
  exact (List.pairwise_map.1 hsorted).sublist List.filter_sublist

/-- Sections that hold every one of some lines once, each in its place. -/
structure Partitions (sections : Sections) (lines : List String) : Prop where
  /-- Every line number occurs once. -/
  once : sections.lineNumbers.Perm (List.range lines.length)
  /-- The preamble has the plain lines in front of the first tag. -/
  preamble : sections.preamble = plainUntilTag (NumberedLine.numbered 0 lines)
  /-- A group has the plain lines between its tag and the next one. -/
  body : ∀ kind, ∀ group ∈ sections.groups kind,
    group.body = plainUntilTag ((NumberedLine.numbered 0 lines).drop (group.tagLine + 1))
  /-- A plain line has its own text. -/
  texts : ∀ line, line ∈ sections.preamble ∨
      (∃ kind, ∃ group ∈ sections.groups kind, line ∈ group.body) →
    lines[line.index]? = some line.text
  /-- A group has the tag that its line carries. -/
  tags : ∀ kind, ∀ group ∈ sections.groups kind, group.tag.kind = kind ∧
    ∃ text, lines[group.tagLine]? = some text ∧ scanLine text = .tag group.tag
  /-- A diagnostic tells the unknown name that its line carries. -/
  unknown : ∀ diagnostic ∈ Notice.diagnostics sections.notices, ∃ text name,
    lines[diagnostic.line]? = some text ∧ scanLine text = .unknown name ∧
      diagnostic = ⟨diagnostic.line, .malformedTag, (TagError.unknownName name).message⟩
  /-- The groups of a kind stand in the order of their tags. -/
  ordered : ∀ kind, (sections.groups kind).Pairwise (·.tagLine < ·.tagLine)

/-- The sections of a document part its lines. -/
theorem partitions_ofLines (lines : List String) : (ofLines lines).Partitions lines where
  once := by
    have hperm := lineNumbers_perm (NumberedLine.numbered 0 lines)
    rwa [NumberedLine.map_index_numbered, ← List.range_eq_range', ← ofLinesFrom_eq_ofNumbered]
      at hperm
  preamble := by rw [ofLines, ofLinesFrom_eq_ofNumbered, preamble_ofNumbered]
  body := fun _ _ hgroup => (mem_groups_ofLines_iff.1 hgroup).2.2
  texts := by
    rintro line (hline | ⟨kind, group, hgroup, hline⟩)
    · rw [ofLines, ofLinesFrom_eq_ofNumbered, preamble_ofNumbered] at hline
      exact NumberedLine.mem_numbered_zero_iff.1 ((plainUntilTag_sublist _).subset hline)
    · rw [(mem_groups_ofLines_iff.1 hgroup).2.2] at hline
      exact NumberedLine.mem_numbered_zero_iff.1
        (List.mem_of_mem_drop ((plainUntilTag_sublist _).subset hline))
  tags := fun _ _ hgroup =>
    ⟨(mem_groups_ofLines_iff.1 hgroup).2.1, (mem_groups_ofLines_iff.1 hgroup).1⟩
  unknown := by
    intro diagnostic hmem
    rw [diagnostics_notices] at hmem
    obtain ⟨⟨i, name⟩, hunknown, rfl⟩ := List.mem_map.1 hmem
    obtain ⟨text, htext, hscan⟩ := mem_unknownTags_ofLines_iff.1 hunknown
    exact ⟨text, name, htext, hscan, rfl⟩
  ordered := pairwise_groups_ofLines lines

/-- Cutting a document puts every line in one place: in the preamble or a body if it is plain, at
the head of a group if it has a tag, and in a diagnostic if its tag is unknown. One pass that goes
back and forth between the kinds comes to the same groups. -/
theorem every_line_in_one_place (lines : List String) :
    (ofLines lines).Partitions lines ∧ (ForwardPass.ofLines lines).Gathers (ofLines lines) :=
  ⟨partitions_ofLines lines, ForwardPass.gathers_ofLines lines⟩

end Sections

end AnnotatedEnv
