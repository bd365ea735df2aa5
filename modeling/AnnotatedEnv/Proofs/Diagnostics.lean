/-
Module: AnnotatedEnv.Proofs.Diagnostics
Purpose: What becomes of the diagnostics of a document when its lines get other numbers.
Main exports: Notice.moved, Sections.allNotices, Sections.allNotices_moved,
  Sections.line_of_mem_allNotices, Diagnostic.Moved, Loaded.sortByLine_filter,
  Loaded.moved_sortByLine
-/
import AnnotatedEnv.Proofs.Renumber
import AnnotatedEnv.Proofs.Undisturbed

namespace AnnotatedEnv

/-! ### Notices of moved lines -/

namespace Notice

def moved (f : Nat → Nat) : Notice → Notice
  | unknownTag line name => unknownTag (f line) name
  | repeatedSection line kind first => repeatedSection (f line) kind (f first)
  | repeatedKey line key earlier => repeatedKey (f line) key (f earlier)
  | rejectedMode line error => rejectedMode (f line) error
  | extendedMode line id => extendedMode (f line) id
  | rejectedValue line error => rejectedValue (f line) error
  | replacedConstraint line key => replacedConstraint (f line) key
  | keptConstant key => keptConstant key
  | strayKey key => strayKey key
  | ignoredLegacy line => ignoredLegacy (f line)

def line? : Notice → Option Nat
  | unknownTag line _ => some line
  | repeatedSection line _ _ => some line
  | repeatedKey line _ _ => some line
  | rejectedMode line _ => some line
  | extendedMode line _ => some line
  | rejectedValue line _ => some line
  | replacedConstraint line _ => some line
  | keptConstant _ => none
  | strayKey _ => none
  | ignoredLegacy line => some line

theorem line?_moved (f : Nat → Nat) (notice : Notice) :
    (notice.moved f).line? = notice.line?.map f := by
  cases notice <;> rfl

/-- A diagnostic stands on the line that its notice is about. -/
theorem line?_of_diagnostic? {notice : Notice} {d : Diagnostic}
    (h : notice.diagnostic? = some d) : notice.line? = some d.line := by
  cases notice <;> simp only [diagnostic?, Option.some.injEq, reduceCtorEq] at h <;>
    simp [line?, ← h]

/-- Leaving out diagnostics by their lines is leaving out notices by theirs. -/
theorem diagnostics_filter (p : Nat → Bool) (notices : List Notice) :
    (diagnostics notices).filter (fun d => p d.line) =
      diagnostics (notices.filter fun notice => notice.line?.all p) := by
  induction notices with
  | nil => rfl
  | cons notice notices ih =>
      simp only [diagnostics] at ih ⊢
      cases hd : notice.diagnostic? with
      | none => cases hp : notice.line?.all p <;> simp [hd, hp, ih]
      | some d =>
          have hline := line?_of_diagnostic? hd
          cases hp : p d.line <;> simp [hd, hline, hp, ih]

end Notice

namespace TemplateBlock

/-- Repeated keys are found again at lines with other numbers. -/
theorem repeats_moved (f : Nat → Nat) (seen : List (String × Nat)) (keys : List (Nat × String)) :
    repeats (seen.map fun e => (e.1, f e.2)) (keys.map fun (line, key) => (f line, key)) =
      (repeats seen keys).map (Notice.moved f) := by
  induction keys generalizing seen with
  | nil => rfl
  | cons e keys ih =>
      obtain ⟨line, key⟩ := e
      rw [List.map_cons, repeats, repeats, Pairs.find?_map_snd]
      cases hfind : Pairs.find? key seen with
      | none => exact ih ((key, line) :: seen)
      | some earlier => exact congrArg (_ :: ·) (ih seen)

theorem noticesOfGroups_moved (f : Nat → Nat) (kind : TagKind) (groups : List TagGroup) :
    noticesOfGroups kind (groups.map (TagGroup.moved f)) =
      (noticesOfGroups kind groups).map (Notice.moved f) := by
  cases groups with
  | nil => rfl
  | cons first later =>
      have hrepeats := repeats_moved f [] (assignedKeys first.body)
      rw [← assignedKeys_moved] at hrepeats
      rw [List.map_cons, noticesOfGroups, noticesOfGroups, List.map_append, ← hrepeats,
        List.map_map, List.map_map]
      rfl

end TemplateBlock

theorem Modes.noticesOfGroups_moved (f : Nat → Nat) (groups : List TagGroup) :
    noticesOfGroups (groups.map (TagGroup.moved f)) =
      (noticesOfGroups groups).map (Notice.moved f) := by
  have hgroup : ∀ (modes : Modes) (group : TagGroup), groupNotices (modes.moved f) (group.moved f) =
      (groupNotices modes group).map (Notice.moved f) := by
    intro modes group
    rw [groupNotices, groupNotices, TagGroup.tag_moved]
    cases ModeId.ofPayload group.tag.payload with
    | error e => rfl
    | ok id =>
        have hknown : (modes.moved f).contains id = modes.contains id := by
          rw [OrderedMap.contains, get?_moved, Option.isSome_map]
          rfl
        simp only [hknown]
        cases modes.contains id <;> rfl
  have hfrom : ∀ modes : Modes, noticesFrom (modes.moved f) (groups.map (TagGroup.moved f)) =
      (noticesFrom modes groups).map (Notice.moved f) := by
    induction groups with
    | nil => exact fun _ => rfl
    | cons group groups ih =>
        intro modes
        rw [List.map_cons, noticesFrom, noticesFrom, hgroup, addGroup_moved, ih, List.map_append]
  exact hfrom .empty

theorem Constraints.noticesOfGroups_moved (f : Nat → Nat) (groups : List TagGroup) :
    noticesOfGroups (groups.map (TagGroup.moved f)) =
      (noticesOfGroups groups).map (Notice.moved f) := by
  have hgroup : ∀ (constraints : Constraints) (group : TagGroup),
      groupNotices constraints (group.moved f) =
        (groupNotices constraints group).map (Notice.moved f) := by
    intro constraints group
    rw [groupNotices, groupNotices, TagGroup.tag_moved]
    cases ValueSpec.ofPayload group.tag.payload with
    | error e => rfl
    | ok spec =>
        simp only [List.map_map]
        rfl
  have hfrom : ∀ constraints : Constraints,
      noticesFrom constraints (groups.map (TagGroup.moved f)) =
        (noticesFrom constraints groups).map (Notice.moved f) := by
    induction groups with
    | nil => exact fun _ => rfl
    | cons group groups ih =>
        intro constraints
        rw [List.map_cons, noticesFrom, noticesFrom, hgroup, addGroup_moved, ih, List.map_append]
  exact hfrom .empty

namespace Sections

/-- All that reading sections gives notice of, but for keys that an honoured block leaves out. -/
def allNotices (sections : Sections) (options : LoadOptions) : List Notice :=
  sections.notices
    ++ TemplateBlock.noticesOfGroups .template (sections.groups .template)
    ++ TemplateBlock.noticesOfGroups .overwritten (sections.groups .overwritten)
    ++ Modes.noticesOfGroups (sections.groups .mode)
    ++ Constraints.noticesOfGroups (sections.groups .value)
    ++ match (sections.block? .overwritten).map (·.tagLine) with
      | none => []
      | some line => if options.legacyOverwritten then [] else [.ignoredLegacy line]

/-- Moving the lines of all sections moves what is given notice of. -/
theorem allNotices_moved (f : Nat → Nat) (sections : Sections) (options : LoadOptions) :
    (sections.moved f).allNotices options = (sections.allNotices options).map (Notice.moved f) := by
  have hunknown : (sections.moved f).notices = sections.notices.map (Notice.moved f) := by
    simp [notices, moved, Notice.moved]
  simp only [allNotices, List.map_append, hunknown, groups_moved, block?_moved,
    TemplateBlock.noticesOfGroups_moved, Modes.noticesOfGroups_moved,
    Constraints.noticesOfGroups_moved]
  congr 1
  cases sections.block? .overwritten with
  | none => rfl
  | some block => cases options.legacyOverwritten <;> rfl

/-- A notice is about a line that was read: one that was not could be moved anywhere, and the notice
would have to move with it. -/
theorem line_of_mem_allNotices {lines : List NumberedLine} {options : LoadOptions}
    {notice : Notice} (h : notice ∈ (ofNumbered lines).allNotices options) {line : Nat}
    (hline : notice.line? = some line) : line ∈ lines.map (·.index) := by
  let f : Nat → Nat := fun i => if i ∈ lines.map (·.index) then i else i + 1
  have hlines : lines.map (NumberedLine.moved f) = lines := by
    refine (List.map_congr_left fun l hl => ?_).trans (List.map_id _)
    have hmem : l.index ∈ lines.map (·.index) := List.mem_map_of_mem hl
    simp only [NumberedLine.moved, f, if_pos hmem, id]
  have hnotices : ((ofNumbered lines).allNotices options).map (Notice.moved f) =
      ((ofNumbered lines).allNotices options).map id := by
    rw [← allNotices_moved, ← ofNumbered_moved, hlines, List.map_id]
  have hfixed : notice.moved f = notice := List.map_inj_left.1 hnotices notice h
  have hstays : f line = line := by
    have hmoved := Notice.line?_moved f notice
    rw [hfixed, hline] at hmoved
    exact (Option.some.inj hmoved).symm
  by_contra hnot
  simp only [f, if_neg hnot] at hstays
  omega

end Sections

/-! ### Diagnostics of moved lines -/

/-- The diagnostic of a moved line. Only a message that names another line may differ. -/
structure Diagnostic.Moved (f : Nat → Nat) (old new : Diagnostic) : Prop where
  line_eq : new.line = f old.line
  kind_eq : new.kind = old.kind
  message_eq : old.kind ≠ .duplicateTemplate → old.kind ≠ .duplicateKey →
    new.message = old.message

/-- Notices that are moved make diagnostics that are moved. -/
theorem Notice.diagnostics_moved (f : Nat → Nat) (notices : List Notice) :
    List.Forall₂ (Diagnostic.Moved f) (diagnostics notices)
      (diagnostics (notices.map (moved f))) := by
  induction notices with
  | nil => exact .nil
  | cons notice notices ih =>
      cases notice with
      | unknownTag line name => exact .cons ⟨rfl, rfl, fun _ _ => rfl⟩ ih
      | repeatedSection line kind first =>
          exact .cons ⟨rfl, rfl, fun hkind _ => absurd rfl hkind⟩ ih
      | repeatedKey line key earlier =>
          exact .cons ⟨rfl, rfl, fun _ hkind => absurd rfl hkind⟩ ih
      | rejectedMode line error => exact .cons ⟨rfl, rfl, fun _ _ => rfl⟩ ih
      | extendedMode line id => exact ih
      | rejectedValue line error => exact .cons ⟨rfl, rfl, fun _ _ => rfl⟩ ih
      | replacedConstraint line key => exact ih
      | keptConstant key => exact ih
      | strayKey key => exact ih
      | ignoredLegacy line => exact .cons ⟨rfl, rfl, fun _ _ => rfl⟩ ih

namespace Loaded

/-! ### The order of lines -/

theorem insertByLine_perm (d : Diagnostic) (ds : List Diagnostic) :
    (insertByLine d ds).Perm (d :: ds) := by
  induction ds with
  | nil => exact .refl _
  | cons first ds ih =>
      rw [insertByLine]
      split
      · exact .refl _
      · exact (ih.cons first).trans (.swap d first ds)

/-- Sorting keeps every diagnostic. -/
theorem sortByLine_perm (ds : List Diagnostic) : (sortByLine ds).Perm ds := by
  induction ds with
  | nil => exact .refl _
  | cons d ds ih => exact (insertByLine_perm d _).trans (ih.cons d)

theorem mem_insertByLine {d e : Diagnostic} {ds : List Diagnostic}
    (h : e ∈ insertByLine d ds) : e = d ∨ e ∈ ds :=
  List.mem_cons.1 ((insertByLine_perm d ds).mem_iff.1 h)

theorem mem_of_mem_sortByLine {d : Diagnostic} {ds : List Diagnostic} (h : d ∈ sortByLine ds) :
    d ∈ ds :=
  (sortByLine_perm ds).mem_iff.1 h

theorem pairwise_insertByLine (d : Diagnostic) {ds : List Diagnostic}
    (h : ds.Pairwise (·.line ≤ ·.line)) : (insertByLine d ds).Pairwise (·.line ≤ ·.line) := by
  induction ds with
  | nil => exact List.pairwise_singleton _ _
  | cons first ds ih =>
      obtain ⟨hfirst, hrest⟩ := List.pairwise_cons.1 h
      rw [insertByLine]
      split
      · next hle =>
        refine List.pairwise_cons.2 ⟨fun e he => ?_, h⟩
        rcases List.mem_cons.1 he with rfl | he
        · exact hle
        · exact Nat.le_trans hle (hfirst e he)
      · next hnot =>
        refine List.pairwise_cons.2 ⟨fun e he => ?_, ih hrest⟩
        rcases mem_insertByLine he with rfl | he
        · omega
        · exact hfirst e he

/-- Sorted diagnostics stand in the order of their lines. -/
theorem pairwise_sortByLine (ds : List Diagnostic) :
    (sortByLine ds).Pairwise (·.line ≤ ·.line) := by
  induction ds with
  | nil => exact .nil
  | cons d ds ih => exact pairwise_insertByLine d ih

theorem insertByLine_of_le {d : Diagnostic} {ds : List Diagnostic}
    (h : ∀ e ∈ ds, d.line ≤ e.line) : insertByLine d ds = d :: ds := by
  cases ds with
  | nil => rfl
  | cons first ds => rw [insertByLine, if_pos (h first (by simp))]

/-- Sorting in and filtering may change places. -/
theorem filter_insertByLine (p : Diagnostic → Bool) (d : Diagnostic) {ds : List Diagnostic}
    (h : ds.Pairwise (·.line ≤ ·.line)) :
    (insertByLine d ds).filter p =
      if p d then insertByLine d (ds.filter p) else ds.filter p := by
  induction ds with
  | nil => cases hp : p d <;> simp [insertByLine, hp]
  | cons first ds ih =>
      obtain ⟨hfirst, hrest⟩ := List.pairwise_cons.1 h
      rw [insertByLine]
      split
      · next hle =>
        have hall : ∀ e ∈ (first :: ds).filter p, d.line ≤ e.line := by
          intro e he
          rcases List.mem_cons.1 (List.mem_filter.1 he).1 with rfl | he
          · exact hle
          · exact Nat.le_trans hle (hfirst e he)
        rw [List.filter_cons, insertByLine_of_le hall]
      · next hnot =>
        rw [List.filter_cons, ih hrest]
        cases hp : p d <;> cases hpf : p first <;> simp [hpf, insertByLine, hnot]

/-- Sorting what is left is leaving it out of what is sorted. -/
theorem sortByLine_filter (p : Diagnostic → Bool) (ds : List Diagnostic) :
    (sortByLine ds).filter p = sortByLine (ds.filter p) := by
  induction ds with
  | nil => rfl
  | cons d ds ih =>
      rw [sortByLine, filter_insertByLine p d (pairwise_sortByLine ds), ih, List.filter_cons]
      split <;> rfl

/-- Moving lines without changing their order keeps the order of diagnostics. -/
theorem moved_sortByLine {f : Nat → Nat} {kept : Nat → Prop}
    (hmono : ∀ i j, kept i → kept j → (i ≤ j ↔ f i ≤ f j)) {old new : List Diagnostic}
    (hkept : ∀ d ∈ old, kept d.line) (h : List.Forall₂ (Diagnostic.Moved f) old new) :
    List.Forall₂ (Diagnostic.Moved f) (sortByLine old) (sortByLine new) := by
  have hinsert : ∀ {d d' : Diagnostic}, d.Moved f d' → kept d.line →
      ∀ {ds ds' : List Diagnostic}, (∀ e ∈ ds, kept e.line) →
        List.Forall₂ (Diagnostic.Moved f) ds ds' →
        List.Forall₂ (Diagnostic.Moved f) (insertByLine d ds) (insertByLine d' ds') := by
    intro d d' hd hdkept ds ds' hds hmoved
    induction hmoved with
    | nil => exact .cons hd .nil
    | @cons e e' es es' he hes ih =>
        have horder := hmono d.line e.line hdkept (hds e (by simp))
        rw [insertByLine, insertByLine, hd.line_eq, he.line_eq]
        by_cases hle : d.line ≤ e.line
        · rw [if_pos hle, if_pos (horder.1 hle)]
          exact .cons hd (.cons he hes)
        · rw [if_neg hle, if_neg fun hle' => hle (horder.2 hle')]
          exact .cons he (ih fun d' hd' => hds d' (List.mem_cons_of_mem _ hd'))
  induction h with
  | nil => exact .nil
  | @cons d d' ds ds' hd hds ih =>
      have hrest : ∀ e ∈ ds, kept e.line := fun e he => hkept e (List.mem_cons_of_mem _ he)
      exact hinsert hd (hkept d (by simp)) (fun e he => hrest e (mem_of_mem_sortByLine he))
        (ih hrest)

end Loaded

end AnnotatedEnv
