/-
Module: AnnotatedEnv.Proofs.Inert
Purpose: Annotations that reading cannot use or ignores can be removed.
Main exports: Tag.Rejected, Region, Unreadable, Ignored, Sections.contents_remove,
  Sections.allNotices_remove, Model.unused_annotations_inert
Without such lines a document is read as before but for the numbers of the lines behind them.
-/
import AnnotatedEnv.Proofs.Diagnostics

namespace AnnotatedEnv

/-! ### What can be removed -/

/-- The payload of a mode or a value tag is refused. -/
inductive Tag.Rejected (tag : Tag) : Prop where
  | mode (kind : tag.kind = .mode) {e : TagError}
      (refused : ModeId.ofPayload tag.payload = .error e)
  | value (kind : tag.kind = .value) {e : TagError}
      (refused : ValueSpec.ofPayload tag.payload = .error e)

/-- The lines `removed`, in front of the lines `back`, go from a tag line up to the next one. -/
structure Region (tag : Tag) (removed back : List String) : Prop where
  opens : ∃ tagLine lines, removed = tagLine :: lines ∧ scanLine tagLine = .tag tag ∧
    ∀ line ∈ lines, isTagged line = false
  stops : ∀ line ∈ back.head?, isTagged line = true

/-- Lines that reading gives notice of and does not use. -/
inductive Unreadable (removed back : List String) : Prop where
  /-- A line with an unknown tag name. -/
  | unknownTag {line name : String} (removed_eq : removed = [line])
      (scan : scanLine line = .unknown name)
  /-- A mode or value group with a refused payload. -/
  | rejected {tag : Tag} (region : Region tag removed back) (rejected : tag.Rejected)

/-- A group that reading does not use because of what else there is. -/
inductive Ignored (options : LoadOptions) (front removed back : List String) : Prop where
  /-- A template or overwriting group behind another one of its kind. -/
  | repeated {tag : Tag} (region : Region tag removed back)
      (kind : tag.kind = .template ∨ tag.kind = .overwritten)
      (earlier : ∃ line ∈ front, opens tag.kind line = true)
  /-- An overwriting group that the options do not honour. -/
  | legacy {tag : Tag} (region : Region tag removed back) (kind : tag.kind = .overwritten)
      (off : options.legacyOverwritten = false)

namespace Sections

/-! ### Without the lines -/

/-- A line with an unknown tag name adds its notice and nothing else. -/
theorem ofNumbered_unknown {line : NumberedLine} {name : String}
    (hscan : scanLine line.text = .unknown name) (front back : List NumberedLine) :
    (ofNumbered (front ++ line :: back)).allGroups = (ofNumbered (front ++ back)).allGroups ∧
      (ofNumbered (front ++ line :: back)).preamble = (ofNumbered (front ++ back)).preamble ∧
      ∃ early late, (ofNumbered (front ++ back)).unknownTags = early ++ late ∧
        (ofNumbered (front ++ line :: back)).unknownTags = early ++ (line.index, name) :: late := by
  induction front with
  | nil =>
      rw [List.nil_append, List.nil_append, ofNumbered]
      simp only [hscan]
      exact ⟨trivial, trivial, [], _, rfl, rfl⟩
  | cons first front ih =>
      obtain ⟨hgroups, hpreamble, early, late, hback, hall⟩ := ih
      rw [List.cons_append, List.cons_append, ofNumbered, ofNumbered]
      cases scanLine first.text with
      | plain => exact ⟨hgroups, congrArg (first :: ·) hpreamble, early, late, hback, hall⟩
      | tag tag =>
          refine ⟨?_, rfl, early, late, hback, hall⟩
          simp only [hgroups, hpreamble]
      | unknown other =>
          refine ⟨hgroups, hpreamble, (first.index, other) :: early, late, ?_, ?_⟩
          · simp only [hback, List.cons_append]
          · simp only [hall, List.cons_append]

/-- A line that opens a group of a kind makes one. -/
theorem groups_ne_nil {kind : TagKind} {lines : List NumberedLine}
    (h : ∃ line ∈ lines, opens kind line.text = true) : (ofNumbered lines).groups kind ≠ [] := by
  induction lines with
  | nil =>
      obtain ⟨line, hmem, _⟩ := h
      exact absurd hmem (by simp)
  | cons first lines ih =>
      obtain ⟨line, hmem, hopens⟩ := h
      by_cases hfirst : opens kind first.text = true
      · obtain ⟨tag, hscan, hkind⟩ := exists_tag_of_opens hfirst
        simp [ofNumbered, hscan, groups, hkind]
      · have hne : line ≠ first := by
          rintro rfl
          exact hfirst hopens
        have hrest := ih ⟨line, (List.mem_cons.1 hmem).resolve_left hne, hopens⟩
        rw [groups] at hrest
        cases hscan : scanLine first.text with
        | plain => simpa [ofNumbered, hscan, groups] using hrest
        | unknown name => simpa [ofNumbered, hscan, groups] using hrest
        | tag tag =>
            have hother : tag.kind ≠ kind := by simpa [opens, hscan] using hfirst
            simpa [ofNumbered, hscan, groups, hother] using hrest

/-- A region gives one group of its own. -/
theorem exists_group_of_region {tag : Tag} (front : List NumberedLine)
    {removed back : List NumberedLine}
    (h : Region tag (removed.map (·.text)) (back.map (·.text))) :
    (∃ group, group.tag = tag ∧ group.tagLine ∈ removed.map (·.index) ∧
      (ofNumbered removed).allGroups = [group]) ∧
      ofNumbered (front ++ (removed ++ back)) =
        (ofNumbered front).append ((ofNumbered removed).append (ofNumbered back)) ∧
      ofNumbered (front ++ back) = (ofNumbered front).append (ofNumbered back) := by
  obtain ⟨tagLine, texts, hremoved, hscan, huntagged⟩ := h.opens
  obtain ⟨line, lines, rfl, rfl, rfl⟩ := List.map_eq_cons_iff.1 hremoved
  have hback : BeginTagged back := by
    intro l hl
    refine h.stops l.text ?_
    rw [List.head?_map, hl]
    rfl
  have hregion : BeginTagged (line :: lines ++ back) := by
    intro l hl
    obtain rfl : line = l := by simpa using hl
    simp [isTagged, hscan]
  have hnone : (ofNumbered lines).allGroups = [] :=
    allGroups_of_untagged fun l hl => huntagged l.text (List.mem_map_of_mem hl)
  refine ⟨⟨⟨line.index, tag, (ofNumbered lines).preamble⟩, rfl, by simp, ?_⟩, ?_, ?_⟩
  · rw [ofNumbered]
    simp only [hscan, hnone]
  · rw [ofNumbered_append hregion, ofNumbered_append hback]
  · rw [ofNumbered_append hback]

/-! ### What a model is made of -/

end Sections

/-- A mode group that is refused adds no preset. -/
theorem Modes.addGroup_of_refused {group : TagGroup} {e : TagError}
    (h : ModeId.ofPayload group.tag.payload = .error e) (modes : Modes) :
    modes.addGroup group = modes := by
  rw [addGroup, h]

/-- So the presets are the same without it. -/
theorem Modes.ofGroups_of_refused {group : TagGroup} {e : TagError}
    (h : ModeId.ofPayload group.tag.payload = .error e) (front back : List TagGroup) :
    ofGroups (front ++ group :: back) = ofGroups (front ++ back) := by
  rw [ofGroups, ofGroups, List.foldl_append, List.foldl_append, List.foldl_cons,
    addGroup_of_refused h]

/-- A value group that is refused constrains no key. -/
theorem Constraints.addGroup_of_refused {group : TagGroup} {e : TagError}
    (h : ValueSpec.ofPayload group.tag.payload = .error e) (constraints : Constraints) :
    constraints.addGroup group = constraints := by
  rw [addGroup, h]

/-- So the constraints are the same without it. -/
theorem Constraints.ofGroups_of_refused {group : TagGroup} {e : TagError}
    (h : ValueSpec.ofPayload group.tag.payload = .error e) (front back : List TagGroup) :
    ofGroups (front ++ group :: back) = ofGroups (front ++ back) := by
  rw [ofGroups, ofGroups, List.foldl_append, List.foldl_append, List.foldl_cons,
    addGroup_of_refused h]

/-- Groups behind the first one do not count. -/
theorem TemplateBlock.ofGroups_append {front : List TagGroup} (h : front ≠ [])
    (back : List TagGroup) : ofGroups (front ++ back) = ofGroups front := by
  cases front with
  | nil => exact absurd rfl h
  | cons first later => rfl

namespace Sections

variable {options : LoadOptions} {front removed back : List NumberedLine}

/-- Sections with the same groups of every kind but one give the same contents if the groups of
this kind are used alike. -/
theorem contents_congr {s s' : Sections} (kind : TagKind)
    (hothers : ∀ other, kind ≠ other → s.groups other = s'.groups other)
    (hblock : kind = .template → s.block? .template = s'.block? .template)
    (hhonoured : kind = .overwritten → s.honoured? options = s'.honoured? options)
    (hmodes : kind = .mode →
      Modes.ofGroups (s.groups .mode) = Modes.ofGroups (s'.groups .mode))
    (hvalues : kind = .value →
      Constraints.ofGroups (s.groups .value) = Constraints.ofGroups (s'.groups .value)) :
    s.contents options = s'.contents options := by
  have htemplate : s.block? .template = s'.block? .template := by
    by_cases hkind : kind = .template
    · exact hblock hkind
    · rw [block?, block?, hothers _ hkind]
  have hoverwriting : s.honoured? options = s'.honoured? options := by
    by_cases hkind : kind = .overwritten
    · exact hhonoured hkind
    · rw [honoured?, honoured?, block?, block?, hothers _ hkind]
  have hmode : Modes.ofGroups (s.groups .mode) = Modes.ofGroups (s'.groups .mode) := by
    by_cases hkind : kind = .mode
    · exact hmodes hkind
    · rw [hothers _ hkind]
  have hvalue :
      Constraints.ofGroups (s.groups .value) = Constraints.ofGroups (s'.groups .value) := by
    by_cases hkind : kind = .value
    · exact hvalues hkind
    · rw [hothers _ hkind]
  rw [contents, contents, htemplate, hoverwriting, hmode, hvalue]

/-- The groups of a document with and without a region: one more of the kind of its tag. -/
theorem groups_around {tag : Tag} (front : List NumberedLine)
    (h : Region tag (removed.map (·.text)) (back.map (·.text))) :
    ∃ group, group.tag = tag ∧ group.tagLine ∈ removed.map (·.index) ∧
      (∀ kind, tag.kind ≠ kind → (ofNumbered (front ++ back)).groups kind =
        (ofNumbered (front ++ (removed ++ back))).groups kind) ∧
      (ofNumbered (front ++ back)).groups tag.kind =
        (ofNumbered front).groups tag.kind ++ (ofNumbered back).groups tag.kind ∧
      (ofNumbered (front ++ (removed ++ back))).groups tag.kind =
        (ofNumbered front).groups tag.kind ++ group :: (ofNumbered back).groups tag.kind := by
  obtain ⟨⟨group, rfl, hline, hgroup⟩, hold, hnew⟩ := exists_group_of_region front h
  refine ⟨group, rfl, hline, fun kind hne => ?_, ?_, ?_⟩
  · have hnone : (ofNumbered removed).groups kind = [] := by simp [groups, hgroup, hne]
    rw [hold, hnew, groups_append, groups_append, groups_append, hnone, List.nil_append]
  · rw [hnew, groups_append]
  · have hone : (ofNumbered removed).groups group.tag.kind = [group] := by simp [groups, hgroup]
    rw [hold, groups_append, groups_append, hone, List.singleton_append]

/-- Lines that cannot be used give nothing to a model. -/
theorem contents_of_unreadable (h : Unreadable (removed.map (·.text)) (back.map (·.text))) :
    (ofNumbered (front ++ back)).contents options =
      (ofNumbered (front ++ (removed ++ back))).contents options := by
  cases h with
  | unknownTag removed_eq scan =>
      obtain ⟨line, rfl, rfl⟩ := List.map_eq_singleton_iff.1 removed_eq
      have hgroups := (ofNumbered_unknown scan front back).1
      refine contents_of_groups fun kind => ?_
      rw [groups, groups, List.singleton_append, hgroups]
  | rejected region rejected =>
      obtain ⟨group, rfl, _, hothers, hnew, hold⟩ := groups_around front region
      cases rejected with
      | mode kind refused =>
          rw [kind] at hothers hnew hold
          refine contents_congr .mode hothers (by simp) (by simp) (fun _ => ?_) (by simp)
          rw [hnew, hold, Modes.ofGroups_of_refused refused]
      | value kind refused =>
          rw [kind] at hothers hnew hold
          refine contents_congr .value hothers (by simp) (by simp) (by simp) fun _ => ?_
          rw [hnew, hold, Constraints.ofGroups_of_refused refused]

/-- Groups that are ignored give nothing to a model. -/
theorem contents_of_ignored
    (h : Ignored options (front.map (·.text)) (removed.map (·.text)) (back.map (·.text))) :
    (ofNumbered (front ++ back)).contents options =
      (ofNumbered (front ++ (removed ++ back))).contents options := by
  cases h with
  | repeated region kind earlier =>
      obtain ⟨group, rfl, _, hothers, hnew, hold⟩ := groups_around front region
      have hfront : (ofNumbered front).groups group.tag.kind ≠ [] := by
        obtain ⟨text, htext, hopens⟩ := earlier
        obtain ⟨line, hline, rfl⟩ := List.mem_map.1 htext
        exact groups_ne_nil ⟨line, hline, hopens⟩
      have hblock : (ofNumbered (front ++ back)).block? group.tag.kind =
          (ofNumbered (front ++ (removed ++ back))).block? group.tag.kind := by
        rw [block?, block?, hnew, hold, TemplateBlock.ofGroups_append hfront,
          TemplateBlock.ofGroups_append hfront]
      rcases kind with hkind | hkind
      · rw [hkind] at hothers hblock
        exact contents_congr .template hothers (fun _ => hblock) (by simp) (by simp) (by simp)
      · rw [hkind] at hothers hblock
        refine contents_congr .overwritten hothers (by simp) (fun _ => ?_) (by simp) (by simp)
        rw [honoured?, honoured?, hblock]
  | legacy region kind off =>
      obtain ⟨group, rfl, _, hothers, _, _⟩ := groups_around front region
      rw [kind] at hothers
      exact contents_congr .overwritten hothers (by simp) (fun _ => by simp [honoured?, off])
        (by simp) (by simp)

end Sections

/-! ### What is noticed -/

namespace Modes

theorem noticesFrom_append (modes : Modes) (front back : List TagGroup) :
    noticesFrom modes (front ++ back) =
      noticesFrom modes front ++ noticesFrom (front.foldl addGroup modes) back := by
  induction front generalizing modes with
  | nil => rfl
  | cons group front ih =>
      rw [List.cons_append, noticesFrom, noticesFrom, ih, List.append_assoc, List.foldl_cons]

/-- Apart from its own notice a refused group changes nothing of what is noticed. -/
theorem filter_noticesOfGroups_of_refused {group : TagGroup} {e : TagError}
    (h : ModeId.ofPayload group.tag.payload = .error e) {p : Notice → Bool}
    (hp : p (.rejectedMode group.tagLine e) = false) (front back : List TagGroup) :
    (noticesOfGroups (front ++ back)).filter p =
      (noticesOfGroups (front ++ group :: back)).filter p := by
  have hown : ∀ modes : Modes, groupNotices modes group = [.rejectedMode group.tagLine e] := by
    intro modes
    rw [groupNotices, h]
  rw [noticesOfGroups, noticesOfGroups, noticesFrom_append, noticesFrom_append, noticesFrom, hown,
    addGroup_of_refused h, List.filter_append, List.filter_append, List.singleton_append,
    List.filter_cons_of_neg (by simp [hp])]

end Modes

namespace Constraints

theorem noticesFrom_append (constraints : Constraints) (front back : List TagGroup) :
    noticesFrom constraints (front ++ back) =
      noticesFrom constraints front ++ noticesFrom (front.foldl addGroup constraints) back := by
  induction front generalizing constraints with
  | nil => rfl
  | cons group front ih =>
      rw [List.cons_append, noticesFrom, noticesFrom, ih, List.append_assoc, List.foldl_cons]

/-- Apart from its own notice a refused group changes nothing of what is noticed. -/
theorem filter_noticesOfGroups_of_refused {group : TagGroup} {e : TagError}
    (h : ValueSpec.ofPayload group.tag.payload = .error e) {p : Notice → Bool}
    (hp : p (.rejectedValue group.tagLine e) = false) (front back : List TagGroup) :
    (noticesOfGroups (front ++ back)).filter p =
      (noticesOfGroups (front ++ group :: back)).filter p := by
  have hown : ∀ constraints : Constraints,
      groupNotices constraints group = [.rejectedValue group.tagLine e] := by
    intro constraints
    rw [groupNotices, h]
  rw [noticesOfGroups, noticesOfGroups, noticesFrom_append, noticesFrom_append, noticesFrom, hown,
    addGroup_of_refused h, List.filter_append, List.filter_append, List.singleton_append,
    List.filter_cons_of_neg (by simp [hp])]

end Constraints

namespace Sections

variable {options : LoadOptions} {front removed back : List NumberedLine}

theorem filter_allNotices_congr {s s' : Sections} {p : Notice → Bool}
    (hunknown : s.notices.filter p = s'.notices.filter p)
    (htemplate : s.groups .template = s'.groups .template)
    (hoverwritten : s.groups .overwritten = s'.groups .overwritten)
    (hmodes : (Modes.noticesOfGroups (s.groups .mode)).filter p =
      (Modes.noticesOfGroups (s'.groups .mode)).filter p)
    (hvalues : (Constraints.noticesOfGroups (s.groups .value)).filter p =
      (Constraints.noticesOfGroups (s'.groups .value)).filter p) :
    (s.allNotices options).filter p = (s'.allNotices options).filter p := by
  simp only [allNotices, block?, List.filter_append, hunknown, htemplate, hoverwritten, hmodes,
    hvalues]

/-- Whether a notice is about none of these lines. -/
def sparesLines (lines : List NumberedLine) (notice : Notice) : Bool :=
  notice.line?.all fun line => decide (line ∉ lines.map (·.index))

/-- Every unknown name that is noticed stands on one of the lines that were read. -/
theorem filter_notices_self (lines : List NumberedLine) :
    (ofNumbered lines).notices.filter (sparesLines lines) = [] := by
  rw [List.filter_eq_nil_iff]
  intro notice hmem hspared
  have hall : notice ∈ (ofNumbered lines).allNotices {} := by
    simp only [allNotices, List.append_assoc]
    exact List.mem_append_left _ hmem
  obtain ⟨⟨line, name⟩, _, rfl⟩ := List.mem_map.1 hmem
  have hline := line_of_mem_allNotices hall rfl
  simp only [sparesLines, Notice.line?, Option.all_some, decide_eq_true_eq] at hspared
  exact hspared hline

/-- Without lines that cannot be used all is noticed that was noticed of the other lines. -/
theorem allNotices_of_unreadable (h : Unreadable (removed.map (·.text)) (back.map (·.text)))
    (hapart : ∀ line ∈ front ++ back, line.index ∉ removed.map (·.index)) :
    (ofNumbered (front ++ back)).allNotices options =
      ((ofNumbered (front ++ (removed ++ back))).allNotices options).filter
        (sparesLines removed) := by
  have hkept : ((ofNumbered (front ++ back)).allNotices options).filter (sparesLines removed) =
      (ofNumbered (front ++ back)).allNotices options := by
    rw [List.filter_eq_self]
    intro notice hmem
    cases hline : notice.line? with
    | none => simp [sparesLines, hline]
    | some line =>
        obtain ⟨l, hl, rfl⟩ := List.mem_map.1 (line_of_mem_allNotices hmem hline)
        simpa [sparesLines, hline] using hapart l hl
  rw [← hkept]
  cases h with
  | unknownTag removed_eq scan =>
      obtain ⟨line, rfl, rfl⟩ := List.map_eq_singleton_iff.1 removed_eq
      obtain ⟨hgroups, _, early, late, hnew, hold⟩ := ofNumbered_unknown scan front back
      have hkinds : ∀ kind, (ofNumbered (front ++ back)).groups kind =
          (ofNumbered (front ++ ([line] ++ back))).groups kind := by
        intro kind
        rw [groups, groups, List.singleton_append, hgroups]
      refine filter_allNotices_congr ?_ (hkinds _) (hkinds _) (by rw [hkinds]) (by rw [hkinds])
      rw [notices, notices, List.singleton_append, hnew, hold]
      simp [sparesLines, Notice.line?]
  | rejected region rejected =>
      obtain ⟨group, rfl, hline, hothers, hnew, hold⟩ := groups_around front region
      have hunknown : (ofNumbered (front ++ back)).notices.filter (sparesLines removed) =
          (ofNumbered (front ++ (removed ++ back))).notices.filter (sparesLines removed) := by
        obtain ⟨_, hwhole, hrest⟩ := exists_group_of_region front region
        have hself := filter_notices_self removed
        rw [hwhole, hrest]
        simp only [notices, append, List.map_append, List.filter_append] at hself ⊢
        rw [hself, List.nil_append]
      have hown : ∀ notice : Notice, notice.line? = some group.tagLine →
          sparesLines removed notice = false := by
        intro notice htagLine
        simpa [sparesLines, htagLine] using hline
      cases rejected with
      | mode kind refused =>
          rw [kind] at hothers hnew hold
          refine filter_allNotices_congr hunknown (hothers _ (by simp)) (hothers _ (by simp)) ?_
            (by rw [hothers _ (by simp)])
          rw [hnew, hold]
          exact Modes.filter_noticesOfGroups_of_refused refused (hown _ rfl) _ _
      | value kind refused =>
          rw [kind] at hothers hnew hold
          refine filter_allNotices_congr hunknown (hothers _ (by simp)) (hothers _ (by simp))
            (by rw [hothers _ (by simp)]) ?_
          rw [hnew, hold]
          exact Constraints.filter_noticesOfGroups_of_refused refused (hown _ rfl) _ _

end Sections

/-! ### Documents without the lines -/

/-- The number that a line has once `count` lines from `start` on are gone. -/
def closeGap (start count line : Nat) : Nat := if line < start then line else line - count

/-- Whether a line is none of the `count` lines from `start` on. -/
def outside (start count line : Nat) : Bool := line < start || start + count ≤ line

/-- Closing a gap keeps the order of the lines around it. -/
theorem le_iff_closeGap_le {start count : Nat} (i j : Nat) (hi : outside start count i = true)
    (hj : outside start count j = true) :
    i ≤ j ↔ closeGap start count i ≤ closeGap start count j := by
  simp only [outside, Bool.or_eq_true, decide_eq_true_eq] at hi hj
  simp only [closeGap]
  split <;> split <;> omega

namespace NumberedLine

theorem mem_index_numbered {i line : Nat} {lines : List String} :
    line ∈ (numbered i lines).map (·.index) ↔ i ≤ line ∧ line < i + lines.length := by
  rw [map_index_numbered, List.mem_range'_1]

theorem numbered_split (front removed back : List String) :
    numbered 0 (front ++ removed ++ back) =
      numbered 0 front ++ (numbered front.length removed ++
        numbered (front.length + removed.length) back) := by
  rw [List.append_assoc, numbered_append, numbered_append, Nat.zero_add]

/-- The lines around a gap get the numbers that they have once the gap is closed. -/
theorem numbered_closeGap (front removed back : List String) :
    numbered 0 (front ++ back) =
      (numbered 0 front ++ numbered (front.length + removed.length) back).map
        (moved (closeGap front.length removed.length)) := by
  have hfront : (numbered 0 front).map (moved (closeGap front.length removed.length)) =
      numbered 0 front := by
    refine map_moved_numbered fun n hn => ?_
    simp only [closeGap]
    split <;> omega
  have hback : (numbered (front.length + removed.length) back).map
        (moved (closeGap front.length removed.length)) = numbered front.length back := by
    refine map_moved_numbered fun n hn => ?_
    simp only [closeGap]
    split <;> omega
  rw [List.map_append, hfront, hback, numbered_append, Nat.zero_add]

end NumberedLine

namespace Model

open NumberedLine Sections

/-- Lines that cannot be used and groups that are ignored can be removed: the template, the
baseline, the presets, the constraints and the place to write stay, but for the numbers of their
lines. If lines that cannot be used are removed, all other diagnostics stay too, in their order. -/
theorem unused_annotations_inert (d : Document) (options : LoadOptions)
    (front removed back : List String) (hlines : d.lines = front ++ removed ++ back) :
    let without := d.withLines (front ++ back)
    let shift := closeGap front.length removed.length
    (Unreadable removed back ∨ Ignored options front removed back →
      (ofDocument without options).contents = (ofDocument d options).contents.moved shift) ∧
    (Unreadable removed back →
      List.Forall₂ (Diagnostic.Moved shift)
        ((Loaded.ofDocument d options).diagnostics.filter fun r =>
          outside front.length removed.length r.line)
        (Loaded.ofDocument without options).diagnostics) := by
  intro without shift
  let F := numbered 0 front
  let R := numbered front.length removed
  let B := numbered (front.length + removed.length) back
  have hold : Sections.ofLines d.lines = ofNumbered (F ++ (R ++ B)) := by
    rw [ofLines, ofLinesFrom_eq_ofNumbered, hlines, numbered_split]
  have hnew : Sections.ofLines without.lines = (ofNumbered (F ++ B)).moved shift := by
    rw [← ofNumbered_moved, ← numbered_closeGap, ← ofLinesFrom_eq_ofNumbered]
    rfl
  have hF : F.map (·.text) = front := map_text_numbered _ _
  have hR : R.map (·.text) = removed := map_text_numbered _ _
  have hB : B.map (·.text) = back := map_text_numbered _ _
  refine ⟨fun hunused => ?_, fun hunreadable => ?_⟩
  · rw [contents_ofDocument, contents_ofDocument, hold, hnew, contents_moved]
    congr 1
    rw [← hF, ← hR, ← hB] at hunused
    exact hunused.elim contents_of_unreadable contents_of_ignored
  · have hapart : ∀ line ∈ F ++ B, line.index ∉ R.map (·.index) := by
      intro line hline hmem
      have hbetween := mem_index_numbered.1 hmem
      rcases List.mem_append.1 hline with hmem | hmem
      · have hbefore := mem_index_numbered.1 (List.mem_map_of_mem hmem)
        omega
      · have hbehind := mem_index_numbered.1 (List.mem_map_of_mem hmem)
        omega
    rw [← hR, ← hB] at hunreadable
    have hspares : sparesLines R = fun notice =>
        notice.line?.all (outside front.length removed.length) := by
      funext notice
      cases hline : notice.line? with
      | none => simp [sparesLines, hline]
      | some line =>
          have hmem : line ∈ R.map (·.index) ↔ _ := mem_index_numbered
          simp only [sparesLines, hline, Option.all_some, hmem, outside]
          grind
    have hbefore : d.sectionNotices options = (ofNumbered (F ++ (R ++ B))).allNotices options := by
      rw [← hold]
      rfl
    have hafter : without.sectionNotices options =
        ((ofNumbered (F ++ B)).allNotices options).map (Notice.moved shift) := by
      rw [← allNotices_moved, ← hnew]
      rfl
    have hkept : Notice.diagnostics ((ofNumbered (F ++ B)).allNotices options) =
        (Notice.diagnostics (d.sectionNotices options)).filter fun r =>
          outside front.length removed.length r.line := by
      rw [Notice.diagnostics_filter, ← hspares, hbefore,
        allNotices_of_unreadable hunreadable hapart]
    rw [Loaded.diagnostics_ofDocument, Loaded.diagnostics_ofDocument, Loaded.sortByLine_filter,
      ← hkept, hafter]
    refine Loaded.moved_sortByLine le_iff_closeGap_le (fun r hr => ?_)
      (Notice.diagnostics_moved shift _)
    rw [hkept] at hr
    exact (List.mem_filter.1 hr).2

/-- A document with a key that is assigned twice, an unknown tag name, a mode group with a refused
payload, a second template group and an overwriting group. -/
def cluttered : Document :=
  .ofLines ["// @env-template", "A=1", "A=2", "// @env-templte", "// @env-mode:fast", "// A=9",
    "// @env-template", "A=7", "// @env-overwritten", "A=5"]

/-- That document without `count` lines from `start` on. -/
def uncluttered (start count : Nat) : Document :=
  cluttered.withLines (cluttered.lines.take start ++ cluttered.lines.drop (start + count))

/-- Each removal leaves the contents as they were, with the numbers behind the gap moved. Behind the
second one the diagnostics that are left are those of the lines around it. -/
theorem cluttered_inert :
    (ofDocument (uncluttered 3 1) {}).contents =
        (ofDocument cluttered {}).contents.moved (closeGap 3 1) ∧
      (ofDocument (uncluttered 4 2) {}).contents =
        (ofDocument cluttered {}).contents.moved (closeGap 4 2) ∧
      (ofDocument (uncluttered 6 2) {}).contents =
        (ofDocument cluttered {}).contents.moved (closeGap 6 2) ∧
      (ofDocument (uncluttered 8 2) {}).contents =
        (ofDocument cluttered {}).contents.moved (closeGap 8 2) ∧
      List.Forall₂ (Diagnostic.Moved (closeGap 4 2))
        ((Loaded.ofDocument cluttered {}).diagnostics.filter fun r => outside 4 2 r.line)
        (Loaded.ofDocument (uncluttered 4 2) {}).diagnostics := by
  have hsplit : ∀ start count, cluttered.lines = cluttered.lines.take start ++
      (cluttered.lines.drop start).take count ++ cluttered.lines.drop (start + count) := by
    intro start count
    rw [List.append_assoc, ← List.drop_drop, List.take_append_drop, List.take_append_drop]
  have hinert := fun start count => unused_annotations_inert cluttered {} _ _ _ (hsplit start count)
  have hmistyped : Unreadable ((cluttered.lines.drop 3).take 1) (cluttered.lines.drop 4) :=
    .unknownTag rfl (by decide +kernel : scanLine _ = .unknown "env-templte")
  have hmode : Region ⟨.mode, some "fast"⟩ ((cluttered.lines.drop 4).take 2)
      (cluttered.lines.drop 6) :=
    ⟨⟨_, _, rfl, by decide +kernel, by decide +kernel⟩, by decide +kernel⟩
  have hpayload : ModeId.ofPayload (some "fast") = .error (.invalidMode "fast") := by
    decide +kernel
  have hrefused : Unreadable ((cluttered.lines.drop 4).take 2) (cluttered.lines.drop 6) :=
    .rejected hmode (.mode rfl hpayload)
  have htemplate : Region ⟨.template, none⟩ ((cluttered.lines.drop 6).take 2)
      (cluttered.lines.drop 8) :=
    ⟨⟨_, _, rfl, by decide +kernel, by decide +kernel⟩, by decide +kernel⟩
  have hsecond : Ignored {} (cluttered.lines.take 6) ((cluttered.lines.drop 6).take 2)
      (cluttered.lines.drop 8) :=
    .repeated htemplate (Or.inl rfl) (by decide +kernel)
  have hoverwritten : Region ⟨.overwritten, none⟩ ((cluttered.lines.drop 8).take 2)
      (cluttered.lines.drop 10) :=
    ⟨⟨_, _, rfl, by decide +kernel, by decide +kernel⟩, by decide +kernel⟩
  have hlegacy : Ignored {} (cluttered.lines.take 8) ((cluttered.lines.drop 8).take 2)
      (cluttered.lines.drop 10) :=
    .legacy hoverwritten rfl rfl
  exact ⟨(hinert 3 1).1 (Or.inl hmistyped), (hinert 4 2).1 (Or.inl hrefused),
    (hinert 6 2).1 (Or.inr hsecond), (hinert 8 2).1 (Or.inr hlegacy), (hinert 4 2).2 hrefused⟩

end Model

end AnnotatedEnv
