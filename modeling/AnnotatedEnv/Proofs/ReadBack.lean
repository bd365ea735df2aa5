/-
Module: AnnotatedEnv.Proofs.ReadBack
Purpose: When a configuration that was written back is read again as it was written.
Main exports: Entry.shown, TemplateReadsBack, BlockReadsBack, Model.ReadsBack,
  WriteRange.baseline_written_template, WriteRange.baseline_written_block,
  Model.edit_reads_back_iff
A value may hold the text of a marker. Its line is no plain line then, and reading the document
again misses it, with all lines behind it if the marker is a tag.
-/
import AnnotatedEnv.Proofs.Selection
import AnnotatedEnv.Proofs.WriteBack

namespace AnnotatedEnv

open TemplateBlock (assignments)

/-! ### Written lines -/

namespace Entry

/-- The entries that are read again from their lines: those with a plain line, up to the first
line that has become a tag. -/
def shown : List Entry → List Entry
  | [] => []
  | e :: es =>
    if isTagged (line e) then [] else if isPlain (line e) then e :: shown es else shown es

theorem assignments_map_line {es : List Entry} (hkeys : ∀ e ∈ es, Assignment.IsKey e.1) :
    assignments (es.map line) = es := by
  induction es with
  | nil => rfl
  | cons e es ih =>
      have hparse := parse?_line (hkeys e (by simp))
      rw [List.map_cons, TemplateBlock.assignments_cons hparse,
        ih fun e' he' => hkeys e' (List.mem_cons_of_mem e he')]

theorem shown_sublist (es : List Entry) : (shown es).Sublist es := by
  induction es with
  | nil => exact List.Sublist.slnil
  | cons e es ih =>
      simp only [shown]
      split
      · exact List.nil_sublist _
      · split
        · exact ih.cons_cons e
        · exact ih.cons e

/-- Of written entries those are read again that show. -/
theorem bodyLines_map_line (es : List Entry) : bodyLines (es.map line) = (shown es).map line := by
  induction es with
  | nil => rfl
  | cons e es ih =>
      simp only [List.map_cons, bodyLines, shown, ih]
      split
      · rfl
      · split <;> rfl

theorem shown_of_untagged {es : List Entry} (h : ∀ e ∈ es, isTagged (line e) = false) :
    shown es = es.filter fun e => isPlain (line e) := by
  induction es with
  | nil => rfl
  | cons e es ih =>
      have hline := h e (by simp)
      have hrest := ih fun e' he' => h e' (List.mem_cons_of_mem e he')
      cases hplain : isPlain (line e) <;> simp [shown, hline, hplain, hrest]

/-- A value that makes a tag of its line takes entries out of sight. -/
theorem length_shown_lt {es : List Entry} (h : ∃ e ∈ es, isTagged (line e) = true) :
    (shown es).length < es.length := by
  rcases h with ⟨e, he, htagged⟩
  have hless := length_bodyLines_lt ⟨line e, List.mem_map_of_mem he, htagged⟩
  rwa [bodyLines_map_line, List.length_map, List.length_map] at hless

end Entry

/-- The keys of lines that hold entries are the keys of these entries. -/
theorem keys_assignments_of_heldBy {rows : List (String × Entry)}
    (hheld : ∀ r ∈ rows, Entry.HeldBy r.2 r.1) :
    (assignments (rows.map Prod.fst)).map Prod.fst = rows.map fun r => r.2.1 := by
  induction rows with
  | nil => rfl
  | cons r rows ih =>
      obtain ⟨value, hparse⟩ := hheld r (by simp)
      rw [List.map_cons, TemplateBlock.assignments_cons hparse, List.map_cons, List.map_cons,
        ih fun r' hr' => hheld r' (List.mem_cons_of_mem r hr')]

/-! ### Conditions -/

/-- When entries that replace the lines `old` behind the template tag are read again. -/
structure TemplateReadsBack (template effective : Settings) (old : List String) : Prop where
  /-- No value turns its line into a tag. -/
  untagged : ∀ e ∈ effective.entries, isTagged (Entry.line e) = false
  /-- No value puts a marker on a line that had none. -/
  plain : ∀ r ∈ old.zip effective.entries, isPlain r.1 = true → isPlain (Entry.line r.2) = true
  /-- A line that had a marker was never read, so its key has the value of a line further down. -/
  unread : ∀ r ∈ old.zip effective.entries, isPlain r.1 = false →
    template.get? r.2.1 = some r.2.2
  /-- The lines that are read again come first. -/
  ordered : effective.entries.Pairwise fun a b =>
    isPlain (Entry.line b) = true → isPlain (Entry.line a) = true

/-- The assignments of the lines `back` behind the range, as far as no written line hides them. -/
def behindRange (effective : Settings) (back : List String) : Settings :=
  if effective.entries.any fun e => isTagged (Entry.line e) then .empty
  else .ofList (assignments (bodyLines back))

/-- When entries that are written over the overwriting block in front of the lines `back` are read
again, `after` being the model that is read. -/
structure BlockReadsBack (after : Model) (effective : Settings) (back : List String) : Prop where
  /-- The template has still the same keys. -/
  keys : after.template.keys = effective.keys
  /-- The block says nothing about a constant. -/
  constant : ∀ e ∈ effective.entries, after.isConstant e.1 = true →
    after.template.get? e.1 = some e.2
  /-- No line further down gives another value to a key whose line is read. -/
  shown : ∀ e ∈ Entry.shown effective.entries, after.isConstant e.1 = false →
    ∀ value, (behindRange effective back).get? e.1 = some value → value = e.2
  /-- A key whose line is not read has its value from further down or from the template. -/
  hidden : ∀ e ∈ effective.entries, after.isConstant e.1 = false →
    e ∉ Entry.shown effective.entries →
    ((behindRange effective back).get? e.1).or (after.template.get? e.1) = some e.2

/-- When a configuration that is written into the target of a model is read again, `after` being
the model of the written document. -/
def Model.ReadsBack (m after : Model) (effective : Settings) : Prop :=
  match m.target with
  | none => False
  | some target =>
    let lines := m.document.lines.drop target.firstLine
    if target.kind = .overwritten then
      BlockReadsBack after effective (lines.drop effective.size)
    else TemplateReadsBack m.template effective (lines.take effective.size)

/-! ### The overwriting block -/

namespace WriteRange

variable {d : Document} {options : LoadOptions} {effective : Settings}

/-- The written document has its target at the same place. -/
theorem block?_written (range : WriteRange d options effective) :
    range.written.block? (d.targetKind options) =
      some
        { tagLine := range.front.length
          settings := .ofList (assignments
            (bodyLines (effective.entries.map Entry.line ++ range.back)))
          assignmentLines := (assignments
            (bodyLines (effective.entries.map Entry.line ++ range.back))).length } := by
  apply Document.block?_of_append _ range.opens_front range.opens_tagLine
  rw [written, Document.withLines, Document.mk', before]
  simp

/-- Of the written entries those that are shown are read again, and what stands behind them as far
as it is not hidden. -/
theorem assignments_written (range : WriteRange d options effective) :
    assignments (bodyLines (effective.entries.map Entry.line ++ range.back)) =
      Entry.shown effective.entries ++
        if effective.entries.any fun e => isTagged (Entry.line e) then []
        else assignments (bodyLines range.back) := by
  have hkeys : ∀ e ∈ Entry.shown effective.entries, Assignment.IsKey e.1 := by
    intro e he
    exact range.isKey ((Entry.shown_sublist _).subset he)
  have hany : (effective.entries.map Entry.line).any isTagged =
      effective.entries.any fun e => isTagged (Entry.line e) := by
    rw [List.any_map]
    rfl
  rw [bodyLines_append, Entry.bodyLines_map_line, TemplateBlock.assignments_append,
    Entry.assignments_map_line hkeys, hany]
  split <;> rfl

/-- In the block that was written a key has the value of its last line that shows. -/
theorem get?_block (range : WriteRange d options effective) (key : String) :
    (OrderedMap.ofList (assignments
        (bodyLines (effective.entries.map Entry.line ++ range.back)))).get? key =
      ((behindRange effective range.back).get? key).or
        (Pairs.find? key (Entry.shown effective.entries)) := by
  have hnodup : ((Entry.shown effective.entries).map Prod.fst).Nodup :=
    effective.nodup.sublist ((Entry.shown_sublist _).map _)
  rw [range.assignments_written, OrderedMap.get?_ofList_append, OrderedMap.get?,
    OrderedMap.get?, OrderedMap.entries_ofList hnodup, behindRange]
  split <;> rfl

/-- What the model of the written document makes of one key. -/
theorem get?_baseline_block (range : WriteRange d options effective)
    (hkind : d.targetKind options = .overwritten) {after : Model}
    (hafter : after = Model.ofDocument range.written options) {key : String}
    (hkey : key ∈ after.template.keys) :
    after.baseline.get? key =
      if after.isConstant key then after.template.get? key
      else (((behindRange effective range.back).get? key).or
        (Pairs.find? key (Entry.shown effective.entries))).or (after.template.get? key) := by
  have hlegacy := Document.legacy_of_targetKind hkind
  have hblock := range.block?_written
  rw [hkind] at hblock
  subst hafter
  rw [Model.baseline_ofDocument, Document.honoured?, if_pos hlegacy, hblock]
  exact (Overwrite.get?_apply _ _ _ hkey).trans (by rw [range.get?_block]; rfl)

/-- An entry written over the overwriting block is read again under its three conditions. -/
theorem baseline_written_block (range : WriteRange d options effective)
    (hkind : d.targetKind options = .overwritten) {after : Model}
    (hafter : after = Model.ofDocument range.written options) :
    after.baseline = effective ↔ BlockReadsBack after effective range.back := by
  have hkeysAfter : after.baseline.keys = after.template.keys := by
    rw [hafter]
    exact Model.keys_baseline_ofDocument range.written options
  have hshownNodup : ((Entry.shown effective.entries).map Prod.fst).Nodup :=
    effective.nodup.sublist ((Entry.shown_sublist _).map _)
  have hfind : ∀ e ∈ Entry.shown effective.entries,
      Pairs.find? e.1 (Entry.shown effective.entries) = some e.2 := by
    intro e he
    exact (Pairs.find?_eq_some_iff hshownNodup e.1 e.2).2 he
  have hmiss : ∀ e ∈ effective.entries, e ∉ Entry.shown effective.entries →
      Pairs.find? e.1 (Entry.shown effective.entries) = none := by
    intro e he hnot
    rw [Pairs.find?_eq_none_iff]
    intro hmem
    obtain ⟨e', he', hkey⟩ := List.mem_map.1 hmem
    have hvalue' := (effective.mem_entries_iff e'.1 e'.2).1 ((Entry.shown_sublist _).subset he')
    have hvalue := (effective.mem_entries_iff e.1 e.2).1 he
    rw [hkey, hvalue] at hvalue'
    have hsame : e' = e := Prod.ext hkey (Option.some.inj hvalue').symm
    exact hnot (hsame ▸ he')
  constructor
  · intro hbaseline
    have hkeys : after.template.keys = effective.keys := by rw [← hkeysAfter, hbaseline]
    have hget : ∀ e ∈ effective.entries,
        (if after.isConstant e.1 then after.template.get? e.1
        else (((behindRange effective range.back).get? e.1).or
          (Pairs.find? e.1 (Entry.shown effective.entries))).or (after.template.get? e.1)) =
          some e.2 := by
      intro e he
      have hkey : e.1 ∈ after.template.keys := by
        rw [hkeys]
        exact List.mem_map_of_mem he
      rw [← range.get?_baseline_block hkind hafter hkey, hbaseline]
      exact (effective.mem_entries_iff e.1 e.2).1 he
    refine ⟨hkeys, ?_, ?_, ?_⟩
    · intro e he hconstant
      have hvalue := hget e he
      rwa [if_pos hconstant] at hvalue
    · intro e he hconstant value hbehind
      have hvalue := hget e ((Entry.shown_sublist _).subset he)
      rw [if_neg (by simp [hconstant]), hbehind, Option.some_or, Option.some_or] at hvalue
      exact Option.some.inj hvalue
    · intro e he hconstant hnot
      have hvalue := hget e he
      rwa [if_neg (by simp [hconstant]), hmiss e he hnot, Option.or_none] at hvalue
  · intro hreads
    apply OrderedMap.ext_get?
    · rw [hkeysAfter, hreads.keys]
    · intro key hmem
      obtain ⟨e, he, rfl⟩ := List.mem_map.1 hmem
      have hkey : e.1 ∈ after.template.keys := by
        rw [hreads.keys]
        exact hmem
      rw [range.get?_baseline_block hkind hafter hkey, (effective.mem_entries_iff e.1 e.2).1 he]
      cases hconstant : after.isConstant e.1 with
      | true => exact hreads.constant e he hconstant
      | false =>
          by_cases hshown : e ∈ Entry.shown effective.entries
          · rw [hfind e hshown]
            cases hbehind : (behindRange effective range.back).get? e.1 with
            | none => rfl
            | some value =>
                rw [hreads.shown e hshown hconstant value hbehind]
                rfl
          · rw [hmiss e he hshown, Option.or_none]
            exact hreads.hidden e he hconstant hshown

/-! ### The template -/

/-- The lines of the range, each with the entry that it holds. -/
def rows (range : WriteRange d options effective) : List (String × Entry) :=
  range.old.zip effective.entries

theorem fst_rows (range : WriteRange d options effective) : range.rows.map Prod.fst = range.old :=
  List.map_fst_zip (Nat.le_of_eq range.length_old)

theorem snd_rows (range : WriteRange d options effective) :
    range.rows.map Prod.snd = effective.entries :=
  List.map_snd_zip (Nat.le_of_eq range.length_old.symm)

theorem heldBy_rows (range : WriteRange d options effective) :
    ∀ r ∈ range.rows, Entry.HeldBy r.2 r.1 := by
  rintro ⟨text, e⟩ hr
  exact (List.forall₂_iff_zip.1 range.heldBy).2 hr

/-- The entries on plain lines, which reading the document sees. -/
def visible (range : WriteRange d options effective) : List Entry :=
  (range.rows.filter fun r => isPlain r.1).map Prod.snd

/-- The entries on lines with a marker, whose keys other lines assign. -/
def covered (range : WriteRange d options effective) : List Entry :=
  (range.rows.filter fun r => !isPlain r.1).map Prod.snd

theorem mem_visible (range : WriteRange d options effective) (e : Entry) :
    e ∈ range.visible ↔ ∃ r ∈ range.rows, isPlain r.1 = true ∧ r.2 = e := by
  simp [visible, and_assoc]

theorem mem_covered (range : WriteRange d options effective) (e : Entry) :
    e ∈ range.covered ↔ ∃ r ∈ range.rows, isPlain r.1 = false ∧ r.2 = e := by
  simp [covered, and_assoc]

/-- The template of a document whose values go to the template. -/
theorem template_eq (range : WriteRange d options effective)
    (hkind : d.targetKind options = .template) :
    (Model.ofDocument d options).template =
      .ofList (assignments (bodyLines (range.old ++ range.back))) := by
  have hfront := range.opens_front
  have htag := range.opens_tagLine
  rw [hkind] at hfront htag
  rw [Model.template_ofDocument, Document.block?_of_append range.lines_eq hfront htag]
  rfl

/-- A line of the range that is no plain line has its key from a line behind the range, and no
line in it is a tag, for the keys are as many as the lines of the range. -/
theorem assignments_template (range : WriteRange d options effective)
    (hkind : d.targetKind options = .template)
    (hkeys : (Model.ofDocument d options).template.keys = effective.keys) :
    (Model.ofDocument d options).template.entries =
        assignments (range.old.filter isPlain) ++ assignments (bodyLines range.back) ∧
      ∀ line ∈ range.old, isTagged line = false := by
  have htemplate := range.template_eq hkind
  have hsize : (OrderedMap.ofList (assignments (bodyLines (range.old ++ range.back)))).size =
      effective.size := by
    rw [← htemplate, OrderedMap.size_eq_length_keys, OrderedMap.size_eq_length_keys, hkeys]
  have hnodup := OrderedMap.nodup_of_length_le_size_ofList (hsize ▸ range.assignments_le)
  have hentries := OrderedMap.entries_ofList hnodup
  have hlength : (assignments (bodyLines (range.old ++ range.back))).length = effective.size := by
    rw [← hsize, OrderedMap.size, hentries]
  have huntagged : ∀ line ∈ range.old, isTagged line = false := by
    intro line hline
    cases htagged : isTagged line with
    | false => rfl
    | true =>
        have hany : range.old.any isTagged = true := List.any_eq_true.2 ⟨line, hline, htagged⟩
        have hless := length_bodyLines_lt ⟨line, hline, htagged⟩
        have hmost := TemplateBlock.length_assignments_le (bodyLines range.old)
        have hold := range.length_old
        rw [bodyLines_append, if_pos hany, List.append_nil] at hlength
        rw [OrderedMap.size] at hlength
        omega
  have hany : range.old.any isTagged = false := by
    rw [List.any_eq_false]
    intro line hline
    simp [huntagged line hline]
  refine ⟨?_, huntagged⟩
  rw [htemplate, hentries, bodyLines_append, bodyLines_of_untagged huntagged,
    TemplateBlock.assignments_append, hany]
  rfl

theorem keys_plain_lines (range : WriteRange d options effective) :
    (assignments (range.old.filter isPlain)).map Prod.fst = range.visible.map Prod.fst := by
  have hheld : ∀ r ∈ range.rows.filter fun r => isPlain r.1, Entry.HeldBy r.2 r.1 := by
    intro r hr
    exact range.heldBy_rows r (List.mem_filter.1 hr).1
  have hplain : range.old.filter isPlain =
      (range.rows.filter fun r => isPlain r.1).map Prod.fst := by
    rw [← range.fst_rows, List.filter_map]
    rfl
  rw [hplain, keys_assignments_of_heldBy hheld, visible, List.map_map]
  rfl

/-- The plain lines of the range come first, and the lines behind the range assign the keys of the
others. -/
theorem visible_append_covered (range : WriteRange d options effective)
    (hkind : d.targetKind options = .template)
    (hkeys : (Model.ofDocument d options).template.keys = effective.keys) :
    range.visible ++ range.covered = effective.entries ∧
      (assignments (bodyLines range.back)).map Prod.fst = range.covered.map Prod.fst := by
  have hparts : range.visible.map Prod.fst ++ (assignments (bodyLines range.back)).map Prod.fst =
      effective.keys := by
    rw [← hkeys, OrderedMap.keys, (range.assignments_template hkind hkeys).1, List.map_append,
      keys_plain_lines]
  have hall : effective.keys = range.rows.map fun r => r.2.1 := by
    rw [OrderedMap.keys, ← range.snd_rows, List.map_map]
    rfl
  have hprefix : ((range.rows.filter fun r => isPlain r.1).map fun r => r.2.1) <+:
      range.rows.map fun r => r.2.1 := by
    refine ⟨(assignments (bodyLines range.back)).map Prod.fst, ?_⟩
    rw [← hall, ← hparts, visible, List.map_map]
    rfl
  have hnodup : (range.rows.map fun r => r.2.1).Nodup := hall ▸ effective.nodup
  have hsplit := Pairs.filter_append_filter_not (Pairs.pairwise_of_filter_prefix hnodup hprefix)
  have hwhole : range.visible ++ range.covered = effective.entries := by
    rw [visible, covered, ← List.map_append, hsplit, range.snd_rows]
  refine ⟨hwhole, ?_⟩
  rw [OrderedMap.keys, ← hwhole, List.map_append] at hparts
  exact List.append_cancel_left hparts

/-- A tag in a written line costs the template a key. -/
theorem untagged_of_baseline (range : WriteRange d options effective)
    (hkind : d.targetKind options = .template) {after : Model}
    (hafter : after = Model.ofDocument range.written options)
    (hbaseline : after.baseline = effective) :
    ∀ e ∈ effective.entries, isTagged (Entry.line e) = false := by
  intro e he
  cases htagged : isTagged (Entry.line e) with
  | false => rfl
  | true =>
      have hany : (effective.entries.any fun e => isTagged (Entry.line e)) = true :=
        List.any_eq_true.2 ⟨e, he, htagged⟩
      have hblock := range.block?_written
      rw [hkind, range.assignments_written, if_pos hany, List.append_nil] at hblock
      have htemplate : after.template = .ofList (Entry.shown effective.entries) := by
        rw [hafter, Model.template_ofDocument, hblock]
        rfl
      have hkeys : after.template.keys = effective.keys := by
        rw [hafter, ← Model.keys_baseline_ofDocument, ← hafter, hbaseline]
      have hless := Entry.length_shown_lt ⟨e, he, htagged⟩
      have hmost := OrderedMap.size_insertAll_le .empty (Entry.shown effective.entries)
      have hsize : after.template.size = effective.size := by
        rw [OrderedMap.size_eq_length_keys, OrderedMap.size_eq_length_keys, hkeys]
      rw [htemplate, OrderedMap.ofList] at hsize
      rw [hsize] at hmost
      simp only [OrderedMap.size, OrderedMap.empty, List.length_nil, Nat.zero_add] at hmost
      omega

/-- Without a tag in a written line the lines around the range keep their meaning. -/
theorem baseline_of_untagged (range : WriteRange d options effective)
    (hkind : d.targetKind options = .template) {after : Model}
    (hafter : after = Model.ofDocument range.written options)
    (huntagged : ∀ e ∈ effective.entries, isTagged (Entry.line e) = false) :
    after.baseline =
      .ofList ((effective.entries.filter fun e => isPlain (Entry.line e)) ++
        assignments (bodyLines range.back)) := by
  have hany : (effective.entries.any fun e => isTagged (Entry.line e)) = false := by
    rw [List.any_eq_false]
    intro e he
    simp [huntagged e he]
  have hblock := range.block?_written
  rw [hkind, range.assignments_written, hany, Entry.shown_of_untagged huntagged] at hblock
  have hhonoured : range.written.honoured? options = none := by
    have hbefore := (Document.honoured?_eq_none_iff d options).2 hkind
    simp only [Document.honoured?] at hbefore ⊢
    split
    · next hlegacy =>
      rw [if_pos hlegacy, Document.block?_eq_none_iff, range.lines_eq_before] at hbefore
      rw [Document.block?_eq_none_iff]
      intro line hline
      rw [written, Document.withLines, Document.mk', List.mem_append, List.mem_append] at hline
      rcases hline with hline | hline | hline
      · exact hbefore line (List.mem_append_left _ hline)
      · obtain ⟨e, he, rfl⟩ := List.mem_map.1 hline
        cases hopens : opens .overwritten (Entry.line e) with
        | false => rfl
        | true => exact absurd (isTagged_of_opens hopens) (by simp [huntagged e he])
      · exact hbefore line (List.mem_append_right _ (List.mem_append_right _ hline))
    · rfl
  rw [hafter, Model.baseline_ofDocument, hhonoured, Model.template_ofDocument, hblock]
  rfl

/-- Entries written over the lines of the template are read again under the four conditions. -/
theorem baseline_written_template (range : WriteRange d options effective)
    (hkind : d.targetKind options = .template)
    (hkeys : (Model.ofDocument d options).template.keys = effective.keys) {after : Model}
    (hafter : after = Model.ofDocument range.written options) :
    after.baseline = effective ↔
      TemplateReadsBack (Model.ofDocument d options).template effective range.old := by
  obtain ⟨hparts, hcovered⟩ := range.visible_append_covered hkind hkeys
  have hentries := (range.assignments_template hkind hkeys).1
  have hnodup : ((range.visible ++ range.covered).map Prod.fst).Nodup :=
    hparts ▸ effective.nodup
  have hiff :=
    Pairs.entries_ofList_filter_iff (p := fun e => isPlain (Entry.line e)) hnodup hcovered
  rw [hparts] at hiff
  constructor
  · intro hbaseline
    have huntagged := range.untagged_of_baseline hkind hafter hbaseline
    rw [range.baseline_of_untagged hkind hafter huntagged] at hbaseline
    obtain ⟨hvisible, hvalues, hordered⟩ := hiff.1 (by rw [hbaseline])
    refine ⟨huntagged, ?_, ?_, hordered⟩
    · intro r hr hplain
      exact hvisible r.2 ((range.mem_visible r.2).2 ⟨r, hr, hplain, rfl⟩)
    · intro r hr hplain
      rw [← OrderedMap.mem_entries_iff, hentries, hvalues]
      exact List.mem_append_right _ ((range.mem_covered r.2).2 ⟨r, hr, hplain, rfl⟩)
  · intro hreads
    rw [range.baseline_of_untagged hkind hafter hreads.untagged]
    apply OrderedMap.ext_entries
    refine hiff.2 ⟨?_, ?_, hreads.ordered⟩
    · intro e he
      obtain ⟨r, hr, hplain, rfl⟩ := (range.mem_visible e).1 he
      exact hreads.plain r hr hplain
    · symm
      have htemplateNodup := (Model.ofDocument d options).template.nodup
      rw [hentries, List.map_append, List.nodup_append] at htemplateNodup
      rcases htemplateNodup with ⟨_, hbehindNodup, hdisjoint⟩
      apply OrderedMap.entries_eq_of_get? hcovered.symm hbehindNodup
      intro e he
      obtain ⟨r, hr, hplain, rfl⟩ := (range.mem_covered e).1 he
      have hlisted := ((Model.ofDocument d options).template.mem_entries_iff r.2.1 r.2.2).2
        (hreads.unread r hr hplain)
      rw [hentries, List.mem_append] at hlisted
      rw [Pairs.find?_eq_some_iff hbehindNodup]
      rcases hlisted with hfront | hback
      · -- Its key stands behind the range, and no key stands at both places.
        have hkey : r.2.1 ∈ (assignments (bodyLines range.back)).map Prod.fst := by
          rw [hcovered]
          exact List.mem_map_of_mem he
        exact absurd rfl (hdisjoint _ (List.mem_map_of_mem hfront) _ hkey)
      · exact hback

end WriteRange

/-! ### Edits -/

namespace Model

/-- The patch of an edit that changes something applies, and the written document is read as the
effective configuration exactly if every written line keeps what reading needs of it. -/
theorem edit_reads_back_iff (d : Document) (options : LoadOptions) {effective : Settings}
    {request : Request} {edit : Edit} (hreached : (ofDocument d options).Reached effective)
    (hedit : (ofDocument d options).edit effective request = .ok edit)
    (hchanged : edit.isNoop = false) :
    ∃ written, edit.patch.applyTo d = .ok written ∧
      ((ofDocument written options).baseline = edit.effective ↔
        (ofDocument d options).ReadsBack (ofDocument written options) edit.effective) := by
  have hcompute := (edit_eq_ok hedit).1
  have hpatch := (edit_eq_ok hedit).2.2 hchanged
  have hne := isEmpty_eq_false_of_changes hedit hchanged
  obtain ⟨range, ⟨target, htarget, hkind, hfirst⟩, hinstructions⟩ :=
    writeRange_of_patchFor hne hpatch
  have hrest : d.lines.drop target.firstLine = range.old ++ range.back := by
    rw [hfirst, range.lines_eq_before, List.drop_left]
  have hsize : edit.effective.size = range.old.length := range.length_old.symm
  refine ⟨range.written, by rw [hinstructions]; exact range.applyTo, ?_⟩
  simp only [ReadsBack, htarget, document_ofDocument, hrest, hkind, hsize, List.drop_left,
    List.take_left]
  rcases d.targetKind_eq options with hoverwritten | htemplate
  · rw [if_pos hoverwritten]
    exact range.baseline_written_block hoverwritten rfl
  · rw [if_neg (by simp [htemplate])]
    refine range.baseline_written_template htemplate ?_ rfl
    rw [Request.keys_of_compute hcompute, hreached.keys, keys_baseline_ofDocument]

/-- A value of ordinary words is read again. -/
theorem words_read_back :
    ∃ edit written,
      (ofDocument (.ofLines ["// @env-template", "A=1", "B=2"]) {}).edit
          (ofDocument (.ofLines ["// @env-template", "A=1", "B=2"]) {}).baseline
          (.setValue "A" "x y") = .ok edit ∧
        edit.patch.applyTo (.ofLines ["// @env-template", "A=1", "B=2"]) = .ok written ∧
        (ofDocument written {}).baseline = edit.effective := by
  have hparts : ((ofDocument (.ofLines ["// @env-template", "A=1", "B=2"]) {}).edit
        (ofDocument (.ofLines ["// @env-template", "A=1", "B=2"]) {}).baseline
        (.setValue "A" "x y")).map (fun e => (e.effective, e.changes, e.patch.instructions)) =
      .ok (.ofList [("A", "x y"), ("B", "2")], .ofList [("A", "x y")],
        [⟨1, "A=x y"⟩, ⟨2, "B=2"⟩]) := by decide +kernel
  obtain ⟨edit, hedit, heffective, hchanges, _⟩ := exists_edit hparts
  have hchanged : edit.isNoop = false := by
    rw [Edit.isNoop, hchanges]
    decide
  obtain ⟨written, happly, hiff⟩ := edit_reads_back_iff _ _ .baseline hedit hchanged
  refine ⟨edit, written, hedit, happly, hiff.2 ?_⟩
  have htarget : (ofDocument (.ofLines ["// @env-template", "A=1", "B=2"]) {}).target =
      some ⟨.template, 0, 2⟩ := by decide +kernel
  simp only [ReadsBack, htarget, heffective, reduceCtorEq, if_false]
  exact ⟨by decide +kernel, by decide +kernel, by decide +kernel, by decide +kernel⟩

/-- A value with a marker is written as a tag line and lost, and its key with it. -/
theorem marker_not_read_back :
    ∃ edit,
      (ofDocument (.ofLines ["// @env-template", "A=1"]) {}).edit
          (ofDocument (.ofLines ["// @env-template", "A=1"]) {}).baseline
          (.setValue "A" "x // @env-mode:a.b") = .ok edit ∧
        edit.isNoop = false ∧
        ∀ written, edit.patch.applyTo (.ofLines ["// @env-template", "A=1"]) = .ok written →
          (ofDocument written {}).baseline ≠ edit.effective := by
  have hparts : ((ofDocument (.ofLines ["// @env-template", "A=1"]) {}).edit
        (ofDocument (.ofLines ["// @env-template", "A=1"]) {}).baseline
        (.setValue "A" "x // @env-mode:a.b")).map
          (fun e => (e.effective, e.changes, e.patch.instructions)) =
      .ok (.ofList [("A", "x // @env-mode:a.b")], .ofList [("A", "x // @env-mode:a.b")],
        [⟨1, "A=x // @env-mode:a.b"⟩]) := by decide +kernel
  obtain ⟨edit, hedit, heffective, hchanges, hinstructions⟩ := exists_edit hparts
  refine ⟨edit, hedit, ?_, ?_⟩
  · rw [Edit.isNoop, hchanges]
    decide
  · intro written happly
    have hwritten := ((Patch.applyTo_eq_ok_iff _ _ _).1 happly).2.2
    rw [hwritten, hinstructions, heffective]
    decide +kernel

end Model

end AnnotatedEnv
