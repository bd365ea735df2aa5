/-
Module: AnnotatedEnv.Proofs.Reorder
Purpose: The order of a document's sections does not matter.
Main exports: cutAtTags, IsRegion, regionOpens, join_cutAtTags, isRegion_of_mem_cutAtTags,
  Sections.groups_regions, Contents.unnumbered, Model.section_order_irrelevant
A model takes from each kind of groups what it needs without looking at the other kinds, so only the
order among the groups of one kind counts.
-/
import AnnotatedEnv.Proofs.Renumber

namespace AnnotatedEnv

/-! ### Regions -/

/-- The lines in front of the first tag line, and the regions behind them: each tag line with the
lines up to the next one. -/
def cutAtTags : List String → List String × List (List String)
  | [] => ([], [])
  | line :: lines =>
    let rest := cutAtTags lines
    if isTagged line then ([], (line :: rest.1) :: rest.2) else (line :: rest.1, rest.2)

/-- A tag line with untagged lines behind it. -/
def IsRegion (region : List String) : Prop :=
  ∃ tagLine lines, region = tagLine :: lines ∧ isTagged tagLine = true ∧
    ∀ line ∈ lines, isTagged line = false

/-- Whether a region begins with a tag of the kind. -/
def regionOpens (kind : TagKind) (region : List String) : Bool :=
  region.head?.any (opens kind)

/-- Cutting loses no line. -/
theorem join_cutAtTags (lines : List String) :
    (cutAtTags lines).1 ++ (cutAtTags lines).2.flatten = lines := by
  induction lines with
  | nil => rfl
  | cons line lines ih =>
      cases htagged : isTagged line <;> simp [cutAtTags, htagged, ih]

/-- No line in front of the first cut is a tag. -/
theorem untagged_preamble (lines : List String) :
    ∀ line ∈ (cutAtTags lines).1, isTagged line = false := by
  induction lines with
  | nil => simp [cutAtTags]
  | cons first lines ih =>
      cases hfirst : isTagged first with
      | true => simp [cutAtTags, hfirst]
      | false => simpa [cutAtTags, hfirst] using ih

/-- Every region begins at a tag and has no other. -/
theorem isRegion_of_mem_cutAtTags {lines region : List String}
    (h : region ∈ (cutAtTags lines).2) : IsRegion region := by
  induction lines with
  | nil => exact absurd h (by simp [cutAtTags])
  | cons line lines ih =>
      cases htagged : isTagged line with
      | true =>
          simp only [cutAtTags, htagged, if_true] at h
          rcases List.mem_cons.1 h with rfl | h
          · exact ⟨line, _, rfl, htagged, untagged_preamble lines⟩
          · exact ih h
      | false =>
          simp only [cutAtTags, htagged] at h
          exact ih h

namespace Sections

/-! ### Sections without line numbers -/

/-- The sections of lines that all have the number zero. -/
def unnumbered (lines : List String) : Sections :=
  ofNumbered (lines.map fun text => ⟨0, text⟩)

theorem moved_ofLines (lines : List String) :
    (ofLines lines).moved (fun _ => 0) = unnumbered lines := by
  rw [ofLines, ofLinesFrom_eq_ofNumbered, ← ofNumbered_moved, NumberedLine.map_moved_const]
  rfl

theorem allGroups_unnumbered {lines : List String}
    (h : ∀ line ∈ lines, isTagged line = false) : (unnumbered lines).allGroups = [] := by
  refine allGroups_of_untagged fun line hline => ?_
  obtain ⟨text, htext, rfl⟩ := List.mem_map.1 hline
  exact h text htext

theorem groups_of_isRegion {region : List String} (h : IsRegion region) (kind : TagKind) :
    (unnumbered region).groups kind =
      if regionOpens kind region then (unnumbered region).allGroups else [] := by
  obtain ⟨tagLine, lines, rfl, htagged, huntagged⟩ := h
  have hnone : (unnumbered lines).allGroups = [] := allGroups_unnumbered huntagged
  cases hscan : scanLine tagLine with
  | plain => simp [isTagged, hscan] at htagged
  | unknown name => simp [isTagged, hscan] at htagged
  | tag tag =>
      rw [unnumbered] at hnone
      by_cases hkind : tag.kind = kind
      · simp [unnumbered, ofNumbered, hscan, groups, hnone, regionOpens, opens, hkind]
      · simp [unnumbered, ofNumbered, hscan, groups, hnone, regionOpens, opens, hkind]

theorem beginTagged_of_regions {regions : List (List String)}
    (h : ∀ region ∈ regions, IsRegion region) :
    BeginTagged (regions.flatten.map fun text => ⟨0, text⟩) := by
  cases regions with
  | nil => simp [BeginTagged]
  | cons region regions =>
      obtain ⟨tagLine, lines, rfl, htagged, _⟩ := h region (by simp)
      simpa [BeginTagged] using htagged

/-- The groups of a kind are those of the regions that begin with such a tag. -/
theorem groups_regions {regions : List (List String)}
    (h : ∀ region ∈ regions, IsRegion region) (kind : TagKind) :
    (unnumbered regions.flatten).groups kind =
      ((regions.filter (regionOpens kind)).map fun region =>
        (unnumbered region).allGroups).flatten := by
  induction regions with
  | nil => rfl
  | cons region regions ih =>
      have hrest : ∀ r ∈ regions, IsRegion r := fun r hr => h r (List.mem_cons_of_mem _ hr)
      have hregion := groups_of_isRegion (h region (by simp)) kind
      rw [List.flatten_cons, unnumbered, List.map_append,
        ofNumbered_append (beginTagged_of_regions hrest), groups_append]
      change (unnumbered region).groups kind ++ (unnumbered regions.flatten).groups kind = _
      rw [hregion, ih hrest]
      cases hopens : regionOpens kind region <;> simp [hopens]

/-- Untagged lines in front of some regions open no group. -/
theorem groups_preamble_append {preamble : List String}
    (hpreamble : ∀ line ∈ preamble, isTagged line = false) {regions : List (List String)}
    (h : ∀ region ∈ regions, IsRegion region) (kind : TagKind) :
    (unnumbered (preamble ++ regions.flatten)).groups kind =
      (unnumbered regions.flatten).groups kind := by
  have hnone : (unnumbered preamble).allGroups = [] := allGroups_unnumbered hpreamble
  rw [unnumbered, List.map_append, ofNumbered_append (beginTagged_of_regions h), groups_append]
  change (unnumbered preamble).groups kind ++ _ = _
  rw [groups, hnone]
  rfl

end Sections

/-- The contents without the numbers of lines. -/
def Contents.unnumbered (contents : Contents) : Contents := contents.moved fun _ => 0

namespace Model

open Sections

/-- A document that is cut at its tags and put together again in another order, in which the regions
of each kind keep their order, gives the same template, baseline, presets, constraints and place to
write. Only the numbers of lines change. -/
theorem section_order_irrelevant (d : Document) (options : LoadOptions)
    (regions : List (List String)) (hperm : regions.Perm (cutAtTags d.lines).2)
    (hkinds : ∀ kind,
      regions.filter (regionOpens kind) = (cutAtTags d.lines).2.filter (regionOpens kind)) :
    let reordered := d.withLines ((cutAtTags d.lines).1 ++ regions.flatten)
    (ofDocument reordered options).contents.unnumbered =
      (ofDocument d options).contents.unnumbered := by
  intro reordered
  have hcut : ∀ region ∈ (cutAtTags d.lines).2, IsRegion region :=
    fun _ => isRegion_of_mem_cutAtTags
  have hregions : ∀ region ∈ regions, IsRegion region :=
    fun region hregion => hcut region (hperm.subset hregion)
  have hpreamble := untagged_preamble d.lines
  have hold : (Sections.ofLines d.lines).moved (fun _ => 0) =
      unnumbered ((cutAtTags d.lines).1 ++ (cutAtTags d.lines).2.flatten) := by
    rw [moved_ofLines, join_cutAtTags]
  have hnew : (Sections.ofLines reordered.lines).moved (fun _ => 0) =
      unnumbered ((cutAtTags d.lines).1 ++ regions.flatten) := moved_ofLines _
  rw [Contents.unnumbered, Contents.unnumbered, contents_ofDocument, contents_ofDocument,
    ← contents_moved, ← contents_moved, hold, hnew]
  refine contents_of_groups fun kind => ?_
  rw [groups_preamble_append hpreamble hregions, groups_preamble_append hpreamble hcut,
    groups_regions hregions, groups_regions hcut, hkinds]

/-- The overwriting block stands behind the template and the constant that it depends on. -/
def templateFirst : Document :=
  .ofLines ["# head", "// @env-template", "A=1", "B=2", "// @env-value:B(constant)",
    "// @env-mode:m.x", "// A=5", "// @env-overwritten", "A=7", "B=8", "// @env-mode:m.y", "// A=6"]

/-- Its sections, the overwriting block in front. -/
def templateLast : List (List String) :=
  [["// @env-overwritten", "A=7", "B=8"], ["// @env-mode:m.x", "// A=5"],
    ["// @env-mode:m.y", "// A=6"], ["// @env-value:B(constant)"],
    ["// @env-template", "A=1", "B=2"]]

/-- The regions of the document in another order, the template last: line numbers apart it reads the
same. -/
theorem templateLast_reads_alike :
    (ofDocument (templateFirst.withLines
        ((cutAtTags templateFirst.lines).1 ++ templateLast.flatten))
        { legacyOverwritten := true }).contents.unnumbered =
      (ofDocument templateFirst { legacyOverwritten := true }).contents.unnumbered ∧
    (ofDocument templateFirst { legacyOverwritten := true }).baseline =
      .ofList [("A", "7"), ("B", "2")] := by
  have hperm : templateLast.Perm (cutAtTags templateFirst.lines).2 := by decide +kernel
  have hkinds : ∀ kind, templateLast.filter (regionOpens kind) =
      (cutAtTags templateFirst.lines).2.filter (regionOpens kind) := by
    intro kind
    cases kind <;> decide +kernel
  exact ⟨section_order_irrelevant templateFirst _ templateLast hperm hkinds, by decide +kernel⟩

end Model

end AnnotatedEnv
