/-
Module: AnnotatedEnv.Proofs.Constants
Purpose: Whether constants keep their values while requests are written back and the document is
  read again after each.
Main exports: Model.writeBack, Model.laterModels, Write, Model.writes, Write.KeepsTags,
  Write.Spares, Model.KeepsConstants, Model.writeBack_cases, WriteRange.get?_baseline_of_untagged,
  Write.spares_iff, Model.keepsConstants_writeBack_iff, Model.constants_survive_iff,
  Model.constant_lost
Which keys are constant is written in the document that is rewritten. As long as no write makes or
replaces a tag line these annotations stay, and a constant is lost only when its own line in the
template gets a marker.
-/
import AnnotatedEnv.Proofs.OwnLines

namespace AnnotatedEnv

open TemplateBlock (assignments)

/-! ### Runs that are written back -/

namespace Model

/-- The model after a request: its patch is applied and the document read again. A refused request
leaves the model as it is. -/
def writeBack (options : LoadOptions) (m : Model) (request : Request) : Model :=
  match m.edit m.baseline request with
  | .error _ => m
  | .ok edit =>
    match edit.patch.applyTo m.document with
    | .error _ => m
    | .ok written => ofDocument written options

/-- The models of a run, one after each request. -/
def laterModels (options : LoadOptions) : (m : Model) → List Request → List Model
  | _, [] => []
  | m, request :: requests =>
    m.writeBack options request :: laterModels options (m.writeBack options request) requests

end Model

/-- An accepted request's edit, with the model that it is made for. -/
structure Write where
  model : Model
  edit : Edit

/-- The lines that a write replaces, each with its new text. -/
def Write.replaced (w : Write) : List (String × String) :=
  w.edit.patch.replaced w.model.document

/-- The write neither replaces a tag line nor makes one. -/
def Write.KeepsTags (w : Write) : Prop :=
  ∀ r ∈ w.replaced, isTagged r.1 = false ∧ isTagged r.2 = false

/-- A write into the template puts no marker on a line of the key that had none. -/
def Write.Spares (w : Write) (key : String) : Prop :=
  w.model.target.map (·.kind) = some .template →
    ∀ r ∈ w.replaced, (Assignment.parse? r.1).map (·.key) = some key →
      isPlain r.1 = true → isPlain r.2 = true

instance (w : Write) : Decidable w.KeepsTags :=
  inferInstanceAs (Decidable (∀ r ∈ w.replaced, isTagged r.1 = false ∧ isTagged r.2 = false))

instance (w : Write) (key : String) : Decidable (w.Spares key) :=
  inferInstanceAs (Decidable (w.model.target.map (·.kind) = some .template →
    ∀ r ∈ w.replaced, (Assignment.parse? r.1).map (·.key) = some key →
      isPlain r.1 = true → isPlain r.2 = true))

namespace Model

/-- The write of a request, if it is accepted. -/
def write? (m : Model) (request : Request) : Option Write :=
  match m.edit m.baseline request with
  | .error _ => none
  | .ok edit => some ⟨m, edit⟩

/-- The writes of a run, in order. -/
def writes (options : LoadOptions) : (m : Model) → List Request → List Write
  | _, [] => []
  | m, request :: requests =>
    (m.write? request).toList ++ writes options (m.writeBack options request) requests

/-- The constants of a model that its template has are in the baseline of a later model, with the
values that were read first. -/
def KeepsConstants (m later : Model) : Prop :=
  ∀ key value, m.isConstant key = true → m.template.get? key = some value →
    later.baseline.get? key = some value

end Model

/-! ### One request -/

namespace Model

/-- A refused request and one that changes nothing leave the model as it is, any other one writes
the effective configuration over its range. -/
theorem writeBack_cases (d : Document) (options : LoadOptions) (request : Request) :
    (∃ e, (ofDocument d options).edit (ofDocument d options).baseline request = .error e ∧
      (ofDocument d options).writeBack options request = ofDocument d options) ∨
    (∃ edit, (ofDocument d options).edit (ofDocument d options).baseline request = .ok edit ∧
      edit.patch.replaced d = [] ∧
      (ofDocument d options).writeBack options request = ofDocument d options) ∨
    ∃ edit, ∃ range : WriteRange d options edit.effective,
      (ofDocument d options).edit (ofDocument d options).baseline request = .ok edit ∧
      (ofDocument d options).target.map (·.kind) = some (d.targetKind options) ∧
      edit.patch.replaced d = (range.rows.map fun r => (r.1, Entry.line r.2)) ∧
      (ofDocument d options).writeBack options request = ofDocument range.written options := by
  cases hedit : (ofDocument d options).edit (ofDocument d options).baseline request with
  | error e => exact Or.inl ⟨e, rfl, by rw [writeBack, hedit]⟩
  | ok edit =>
      refine Or.inr ?_
      obtain ⟨_, hnoop, hpatch⟩ := edit_eq_ok hedit
      cases hchanged : edit.isNoop with
      | true =>
          have hempty := hnoop hchanged
          have happly : edit.patch.applyTo d = .ok d := by
            rw [hempty, document_ofDocument, Patch.applyTo_eq_ok_iff]
            exact ⟨rfl, by simp [Patch.empty], d.withLines_self.symm⟩
          refine Or.inl ⟨edit, rfl, by rw [hempty]; rfl, ?_⟩
          simp only [writeBack, hedit, document_ofDocument, happly]
      | false =>
          have hne := isEmpty_eq_false_of_changes hedit hchanged
          obtain ⟨range, ⟨target, htarget, hkind, _⟩, hrange⟩ :=
            writeRange_of_patchFor hne (hpatch hchanged)
          have happly : edit.patch.applyTo d = .ok range.written := by
            rw [hrange]
            exact range.applyTo
          refine Or.inr ⟨edit, range, rfl, by rw [htarget, ← hkind]; rfl, ?_, ?_⟩
          · rw [hrange]
            exact range.replaced_eq
          · simp only [writeBack, hedit, document_ofDocument, happly]

end Model

namespace WriteRange

variable {d : Document} {options : LoadOptions} {effective : Settings}

/-- The rows of a range go through the keys of the configuration. -/
theorem keys_rows (range : WriteRange d options effective) :
    (range.rows.map fun r => r.2.1) = effective.keys := by
  rw [OrderedMap.keys, ← range.snd_rows, List.map_map]
  rfl

/-- An entry that the template had already is read again exactly if its line has not got a marker
that it lacked before. -/
theorem get?_baseline_of_untagged {range : WriteRange d options effective} (h : range.Untagged)
    (hkind : d.targetKind options = .template)
    (hkeys : (Model.ofDocument d options).template.keys = effective.keys) {r : String × Entry}
    (hr : r ∈ range.rows)
    (hvalue : (Model.ofDocument d options).template.get? r.2.1 = some r.2.2) :
    (Model.ofDocument range.written options).baseline.get? r.2.1 = some r.2.2 ↔
      (isPlain r.1 = true → isPlain (Entry.line r.2) = true) := by
  obtain ⟨_, hcovered⟩ := range.visible_append_covered hkind hkeys
  have hentries := (range.assignments_template hkind hkeys).1
  have htemplate := (Model.ofDocument d options).template.nodup
  rw [hentries, List.map_append, List.nodup_append] at htemplate
  rcases htemplate with ⟨_, hbehind, hdisjoint⟩
  have hfiltered :
      ((effective.entries.filter fun e => isPlain (Entry.line e)).map Prod.fst).Nodup :=
    effective.nodup.sublist (List.filter_sublist.map _)
  rw [range.baseline_of_untagged hkind rfl h.written, OrderedMap.get?_ofList_append,
    OrderedMap.get?, OrderedMap.get?, OrderedMap.entries_ofList hbehind,
    OrderedMap.entries_ofList hfiltered]
  cases hplain : isPlain r.1 with
  | true =>
      have hmiss : Pairs.find? r.2.1 (assignments (bodyLines range.back)) = none := by
        rw [Pairs.find?_eq_none_iff, hcovered]
        intro hmem
        obtain ⟨e, he, hkey⟩ := List.mem_map.1 hmem
        obtain ⟨other, hother, hnot, rfl⟩ := (range.mem_covered e).1 he
        have hnodup : (range.rows.map fun r => r.2.1).Nodup := range.keys_rows ▸ effective.nodup
        obtain rfl := List.inj_on_of_nodup_map hnodup hother hr hkey
        exact absurd (hnot.symm.trans hplain) (by simp)
      have hmem : r.2 ∈ effective.entries := by
        rw [← range.snd_rows]
        exact List.mem_map_of_mem hr
      rw [hmiss, Option.none_or, Pairs.find?_eq_some_iff hfiltered, List.mem_filter]
      simp [hmem]
  | false =>
      have hkey : r.2.1 ∈ (assignments (bodyLines range.back)).map Prod.fst := by
        rw [hcovered]
        exact List.mem_map_of_mem ((range.mem_covered r.2).2 ⟨r, hr, hplain, rfl⟩)
      have hlisted := ((Model.ofDocument d options).template.mem_entries_iff _ _).2 hvalue
      rw [hentries, List.mem_append] at hlisted
      have hback : (r.2.1, r.2.2) ∈ assignments (bodyLines range.back) := by
        rcases hlisted with hfront | hback
        · exact absurd rfl (hdisjoint _ (List.mem_map_of_mem hfront) _ hkey)
        · exact hback
      rw [(Pairs.find?_eq_some_iff hbehind _ _).2 hback]
      simp

end WriteRange

/-! ### Whole runs -/

namespace Model

theorem isConstant_congr {m n : Model} (h : m.constraints = n.constraints) (key : String) :
    m.isConstant key = n.isConstant key := by
  rw [isConstant, isConstant, h]

/-- What holds of all writes of a run holds of its first edit and of the run behind it. -/
theorem forall_writes_cons {options : LoadOptions} {m : Model} {request : Request}
    {requests : List Request} {P : Write → Prop} :
    (∀ w ∈ m.writes options (request :: requests), P w) ↔
      (∀ edit, m.edit m.baseline request = .ok edit → P ⟨m, edit⟩) ∧
        ∀ w ∈ (m.writeBack options request).writes options requests, P w := by
  rw [writes, List.forall_mem_append, write?]
  cases m.edit m.baseline request <;> simp

/-- The range of a write that keeps the tags holds none, before and after. -/
theorem untagged_of_keepsTags {d : Document} {options : LoadOptions} {edit : Edit}
    {range : WriteRange d options edit.effective}
    (htags : (Write.mk (ofDocument d options) edit).KeepsTags)
    (hreplaced : edit.patch.replaced d = range.rows.map fun r => (r.1, Entry.line r.2)) :
    range.Untagged := by
  rw [Write.KeepsTags, Write.replaced, document_ofDocument, hreplaced,
    List.forall_mem_map] at htags
  constructor
  · rw [← range.fst_rows]
    exact List.forall_mem_map.2 fun r hr => (htags r hr).1
  · rw [← range.snd_rows]
    exact List.forall_mem_map.2 fun r hr => (htags r hr).2

/-- What is written back is again a document, read with the same options. -/
theorem exists_document_of_writeBack (d : Document) (options : LoadOptions) (request : Request) :
    ∃ written, (ofDocument d options).writeBack options request = ofDocument written options := by
  rcases writeBack_cases d options request with ⟨_, _, h⟩ | ⟨_, _, _, h⟩ | ⟨_, range, _, _, _, h⟩
  · exact ⟨d, h⟩
  · exact ⟨d, h⟩
  · exact ⟨range.written, h⟩

/-- The annotations of keys outlive a write that keeps the tags. -/
theorem constraints_writeBack {d : Document} {options : LoadOptions} {request : Request}
    (htags : ∀ edit,
      (ofDocument d options).edit (ofDocument d options).baseline request = .ok edit →
        (Write.mk (ofDocument d options) edit).KeepsTags) :
    ((ofDocument d options).writeBack options request).constraints =
      (ofDocument d options).constraints := by
  rcases writeBack_cases d options request with
    ⟨_, _, h⟩ | ⟨_, _, _, h⟩ | ⟨edit, range, hedit, _, hreplaced, h⟩
  · rw [h]
  · rw [h]
  · have huntagged := untagged_of_keepsTags (htags edit hedit) hreplaced
    rw [h, WriteRange.constraints_written huntagged]

/-- The later models that keep the constants have them in their template with the same values. -/
theorem KeepsConstants.get?_template {first : Model} {d : Document} {options : LoadOptions}
    (hkept : first.KeepsConstants (ofDocument d options))
    (hconstraints : (ofDocument d options).constraints = first.constraints) {key value : String}
    (hconstant : first.isConstant key = true) (hvalue : first.template.get? key = some value) :
    (ofDocument d options).template.get? key = some value := by
  have hlater : (ofDocument d options).isConstant key = true :=
    (isConstant_congr hconstraints key).trans hconstant
  rw [← get?_baseline_of_constant d options hlater]
  exact hkept key value hconstant hvalue

/-- A write over an overwriting block leaves the template and with it all constants. -/
theorem keepsConstants_written_of_overwritten {first : Model} {d : Document} {options : LoadOptions}
    {effective : Settings} {range : WriteRange d options effective}
    (hkept : first.KeepsConstants (ofDocument d options))
    (hconstraints : (ofDocument d options).constraints = first.constraints)
    (huntagged : range.Untagged) (hkind : d.targetKind options = .overwritten) :
    first.KeepsConstants (ofDocument range.written options) := by
  intro key value hconstant hvalue
  have hafter : (ofDocument range.written options).isConstant key = true := by
    rw [isConstant_congr (WriteRange.constraints_written huntagged), isConstant_congr hconstraints]
    exact hconstant
  rw [get?_baseline_of_constant _ _ hafter, WriteRange.template_written huntagged hkind]
  exact hkept.get?_template hconstraints hconstant hvalue

/-- A write into the template keeps the constants exactly if no row of a constant gets a marker that
its line lacked. -/
theorem keepsConstants_written_iff_of_template {first : Model} {d : Document}
    {options : LoadOptions} {effective : Settings} {range : WriteRange d options effective}
    (hkept : first.KeepsConstants (ofDocument d options))
    (hconstraints : (ofDocument d options).constraints = first.constraints)
    (hreached : (ofDocument d options).Reached effective)
    (huntagged : range.Untagged) (hkind : d.targetKind options = .template) :
    first.KeepsConstants (ofDocument range.written options) ↔
      ∀ r ∈ range.rows, r.2.1 ∈ first.template.keys → first.isConstant r.2.1 = true →
        isPlain r.1 = true → isPlain (Entry.line r.2) = true := by
  have hkeys : (ofDocument d options).template.keys = effective.keys := by
    rw [hreached.keys, keys_baseline_ofDocument]
  have heffective : ∀ key value, first.isConstant key = true →
      first.template.get? key = some value → effective.get? key = some value := by
    intro key value hconstant hvalue
    rw [hreached.get?_of_constant ((isConstant_congr hconstraints key).trans hconstant)]
    exact hkept.get?_template hconstraints hconstant hvalue
  -- the row of a constant holds the first value, so its line alone decides
  have hrow : ∀ r ∈ range.rows, first.isConstant r.2.1 = true →
      first.template.get? r.2.1 = some r.2.2 →
      ((ofDocument range.written options).baseline.get? r.2.1 = some r.2.2 ↔
        (isPlain r.1 = true → isPlain (Entry.line r.2) = true)) :=
    fun r hr hconstant hvalue => WriteRange.get?_baseline_of_untagged huntagged hkind hkeys hr
      (hkept.get?_template hconstraints hconstant hvalue)
  constructor
  · intro hafter r hr hkey hconstant
    obtain ⟨value, hvalue⟩ := Option.isSome_iff_exists.1
      ((first.template.contains_iff_mem_keys r.2.1).2 hkey)
    have hentry : effective.get? r.2.1 = some r.2.2 := by
      rw [← OrderedMap.mem_entries_iff, ← range.snd_rows]
      exact List.mem_map_of_mem hr
    obtain rfl : value = r.2.2 :=
      Option.some.inj ((heffective _ _ hconstant hvalue).symm.trans hentry)
    exact (hrow r hr hconstant hvalue).1 (hafter _ _ hconstant hvalue)
  · intro hrows key value hconstant hvalue
    have hentry : (key, value) ∈ range.rows.map Prod.snd := by
      rw [range.snd_rows]
      exact (effective.mem_entries_iff key value).2 (heffective key value hconstant hvalue)
    obtain ⟨r, hr, hentry⟩ := List.mem_map.1 hentry
    obtain ⟨rfl, rfl⟩ : r.2.1 = key ∧ r.2.2 = value := by simp [hentry]
    have hkey : r.2.1 ∈ first.template.keys := OrderedMap.mem_keys_of_get? hvalue
    exact (hrow r hr hconstant hvalue).2 (hrows r hr hkey hconstant)

end Model

/-- The lines of a write over a range are spared row by row, and only in the template. -/
theorem Write.spares_iff {d : Document} {options : LoadOptions} {edit : Edit}
    {range : WriteRange d options edit.effective}
    (htarget : (Model.ofDocument d options).target.map (·.kind) = some (d.targetKind options))
    (hreplaced : edit.patch.replaced d = range.rows.map fun r => (r.1, Entry.line r.2))
    (key : String) :
    (Write.mk (Model.ofDocument d options) edit).Spares key ↔
      (d.targetKind options = .template → ∀ r ∈ range.rows, r.2.1 = key →
        isPlain r.1 = true → isPlain (Entry.line r.2) = true) := by
  have hheld : ∀ r ∈ range.rows, (Assignment.parse? r.1).map (·.key) = some r.2.1 := by
    intro r hr
    obtain ⟨value, hparse⟩ := range.heldBy_rows r hr
    rw [hparse]
    rfl
  simp only [Spares, replaced, Model.document_ofDocument, hreplaced, htarget, List.forall_mem_map,
    Option.some.injEq]
  refine imp_congr_right fun _ => forall₂_congr fun r hr => ?_
  rw [hheld r hr, Option.some.injEq]

namespace Model

/-- A write that keeps the tags keeps the constants exactly if it spares their lines. -/
theorem keepsConstants_written_iff {first : Model} {d : Document} {options : LoadOptions}
    {request : Request} {edit : Edit} {range : WriteRange d options edit.effective}
    (hkept : first.KeepsConstants (ofDocument d options))
    (hconstraints : (ofDocument d options).constraints = first.constraints)
    (hedit : (ofDocument d options).edit (ofDocument d options).baseline request = .ok edit)
    (htarget : (ofDocument d options).target.map (·.kind) = some (d.targetKind options))
    (hreplaced : edit.patch.replaced d = range.rows.map fun r => (r.1, Entry.line r.2))
    (huntagged : range.Untagged) :
    first.KeepsConstants (ofDocument range.written options) ↔
      ∀ key ∈ first.template.keys, first.isConstant key = true →
        (Write.mk (ofDocument d options) edit).Spares key := by
  have hreached : (ofDocument d options).Reached edit.effective :=
    Reached.baseline.step (edit_eq_ok hedit).1
  simp only [Write.spares_iff htarget hreplaced]
  rcases d.targetKind_eq options with hkind | hkind
  · have hafter := keepsConstants_written_of_overwritten hkept hconstraints huntagged hkind
    simp [hkind, hafter]
  · rw [keepsConstants_written_iff_of_template hkept hconstraints hreached huntagged hkind]
    constructor
    · rintro hrows _ hkey hconstant _ r hr rfl
      exact hrows r hr hkey hconstant
    · intro hspared r hr hkey hconstant
      exact hspared r.2.1 hkey hconstant hkind r hr rfl

/-- A request whose write keeps the tags keeps the constants exactly if the write spares them. -/
theorem keepsConstants_writeBack_iff {first : Model} {d : Document} {options : LoadOptions}
    {request : Request} (hkept : first.KeepsConstants (ofDocument d options))
    (hconstraints : (ofDocument d options).constraints = first.constraints)
    (htags : ∀ edit,
      (ofDocument d options).edit (ofDocument d options).baseline request = .ok edit →
        (Write.mk (ofDocument d options) edit).KeepsTags) :
    first.KeepsConstants ((ofDocument d options).writeBack options request) ↔
      ∀ edit, (ofDocument d options).edit (ofDocument d options).baseline request = .ok edit →
        ∀ key ∈ first.template.keys, first.isConstant key = true →
          (Write.mk (ofDocument d options) edit).Spares key := by
  rcases writeBack_cases d options request with
    ⟨e, hedit, h⟩ | ⟨edit, hedit, hreplaced, h⟩ | ⟨edit, range, hedit, htarget, hreplaced, h⟩
  · rw [h, hedit]
    simp [hkept]
  · rw [h, hedit]
    simp [hkept, Write.Spares, Write.replaced, document_ofDocument, hreplaced]
  · have huntagged := untagged_of_keepsTags (htags edit hedit) hreplaced
    have hiff := keepsConstants_written_iff hkept hconstraints hedit htarget hreplaced huntagged
    rw [h, hiff, hedit]
    simp

/-- Along a run whose writes keep the tags the annotations of keys never change. -/
theorem constraints_laterModels {d : Document} {options : LoadOptions} {requests : List Request}
    (htags : ∀ w ∈ (ofDocument d options).writes options requests, w.KeepsTags) :
    ∀ later ∈ (ofDocument d options).laterModels options requests,
      later.constraints = (ofDocument d options).constraints := by
  induction requests generalizing d with
  | nil => simp [laterModels]
  | cons request requests ih =>
      obtain ⟨hhead, hrest⟩ := forall_writes_cons.1 htags
      have hstep := constraints_writeBack hhead
      obtain ⟨written, hwritten⟩ := exists_document_of_writeBack d options request
      rw [laterModels, List.forall_mem_cons]
      rw [hwritten] at hstep hrest ⊢
      exact ⟨hstep, fun later hlater => (ih hrest later hlater).trans hstep⟩

/-- Along such a run the constants keep their first values exactly if every write spares them. -/
theorem keepsConstants_laterModels_iff {first : Model} {d : Document} {options : LoadOptions}
    {requests : List Request} (hkept : first.KeepsConstants (ofDocument d options))
    (hconstraints : (ofDocument d options).constraints = first.constraints)
    (htags : ∀ w ∈ (ofDocument d options).writes options requests, w.KeepsTags) :
    (∀ later ∈ (ofDocument d options).laterModels options requests, first.KeepsConstants later) ↔
      ∀ w ∈ (ofDocument d options).writes options requests,
        ∀ key ∈ first.template.keys, first.isConstant key = true → w.Spares key := by
  induction requests generalizing d with
  | nil => simp [laterModels, writes]
  | cons request requests ih =>
      obtain ⟨hhead, hrest⟩ := forall_writes_cons.1 htags
      have hstep := keepsConstants_writeBack_iff hkept hconstraints hhead
      have hnext := (constraints_writeBack hhead).trans hconstraints
      obtain ⟨written, hwritten⟩ := exists_document_of_writeBack d options request
      rw [laterModels, List.forall_mem_cons, forall_writes_cons, ← hstep]
      rw [hwritten] at hrest hnext ⊢
      exact and_congr_right fun hkeeps => ih hkeeps hnext hrest

/-- While no write of a run makes or replaces a tag line, every key keeps its annotations, and the
constants keep their first values exactly if every write into the template spares their lines. -/
theorem constants_survive_iff (d : Document) (options : LoadOptions) (requests : List Request)
    (htags : ∀ w ∈ (ofDocument d options).writes options requests, w.KeepsTags) :
    (∀ later ∈ (ofDocument d options).laterModels options requests,
        later.constraints = (ofDocument d options).constraints) ∧
      ((∀ later ∈ (ofDocument d options).laterModels options requests,
          (ofDocument d options).KeepsConstants later) ↔
        ∀ w ∈ (ofDocument d options).writes options requests,
          ∀ key ∈ (ofDocument d options).template.keys,
            (ofDocument d options).isConstant key = true → w.Spares key) := by
  have hfirst : (ofDocument d options).KeepsConstants (ofDocument d options) := by
    intro key value hconstant hvalue
    rw [get?_baseline_of_constant d options hconstant]
    exact hvalue
  exact ⟨constraints_laterModels htags, keepsConstants_laterModels_iff hfirst rfl htags⟩

/-- A value with blanks and a mode that names the constant leave it alone. -/
theorem quoted_constant_survives :
    let m := ofDocument (.ofLines ["// @env-template", "A=1", "K=\"k # 1\"",
      "// @env-value:K(constant)", "// @env-mode:m.n", "// A=7", "// K=8"]) {}
    ∀ later ∈ m.laterModels {} [.setValue "A" " x // y", .selectMode ⟨"m", "n"⟩],
      later.baseline.get? "K" = some "k # 1" := by
  intro m later hlater
  have hwrites : ∀ w ∈ m.writes {} [.setValue "A" " x // y", .selectMode ⟨"m", "n"⟩],
      w.KeepsTags ∧ ∀ key ∈ m.template.keys, m.isConstant key = true → w.Spares key := by
    decide +kernel
  have hsurvive := (constants_survive_iff _ _ _ fun w hw => (hwrites w hw).1).2.2
    fun w hw => (hwrites w hw).2
  exact hsurvive later hlater "K" "k # 1" (by decide +kernel) (by decide +kernel)

/-- The value of a constant holds a tab and a marker behind it. Quoted with an escape its line is
plain; any write puts the tab itself there, and the constant is lost with a line that is skipped. -/
theorem constant_lost :
    let m := ofDocument (.ofLines ["// @env-template", "A=1", "B=\"x\\t// @note\"",
      "// @env-value:B(constant)"]) {}
    m.isConstant "B" = true ∧ m.template.get? "B" = some "x\t// @note" ∧
      ∃ later ∈ m.laterModels {} [.setValue "A" "2"], later.baseline.get? "B" = none := by
  decide +kernel

end Model

end AnnotatedEnv
