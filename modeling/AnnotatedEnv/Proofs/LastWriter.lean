/-
Module: AnnotatedEnv.Proofs.LastWriter
Purpose: What a whole sequence of requests makes of a configuration while nothing is written back.
Main exports: Model.after, Model.afterAll, Model.records, lastMention, Request.Unanswered,
  Model.get?_afterAll, Request.refused_iff, Model.last_writer_wins
-/
import AnnotatedEnv.Proofs.Override

namespace AnnotatedEnv

/-! ### Runs of requests -/

namespace Model

/-- The configuration after a request; a refused request leaves it as it is. -/
def after (m : Model) (effective : Settings) (request : Request) : Settings :=
  match request.compute m effective with
  | .ok outcome => outcome.effective
  | .error _ => effective

/-- The configuration after requests, one after another. -/
def afterAll (m : Model) (effective : Settings) (requests : List Request) : Settings :=
  requests.foldl m.after effective

/-- The change records of the accepted ones among requests, in order. -/
def records (m : Model) : (effective : Settings) → List Request → List Settings
  | _, [] => []
  | effective, request :: requests =>
    match request.compute m effective with
    | .ok outcome => outcome.changes :: m.records outcome.effective requests
    | .error _ => m.records effective requests

end Model

/-- The value of a key in the last record that mentions it. -/
def lastMention (key : String) (records : List Settings) : Option String :=
  records.reverse.findSome? (·.get? key)

/-- Later records are asked first. -/
theorem lastMention_cons (key : String) (record : Settings) (records : List Settings) :
    lastMention key (record :: records) = (lastMention key records).or (record.get? key) := by
  simp [lastMention, List.findSome?_append]

/-! ### One request -/

/-- The requests that a document has no answer to: a key that is neither constant nor in the
template, and a mode without a group. -/
def Request.Unanswered (d : Document) (options : LoadOptions) : Request → Prop
  | setValue key _ =>
    (Model.ofDocument d options).isConstant key = false ∧
      key ∉ (Model.ofDocument d options).template.keys
  | selectMode id =>
    ∀ group ∈ (Sections.ofLines d.lines).groups .mode, ModeId.ofPayload group.tag.payload ≠ .ok id

/-- Over a configuration with the keys of the template exactly the unanswered requests are
refused. -/
theorem Request.refused_iff {d : Document} {options : LoadOptions} {effective : Settings}
    (hkeys : effective.keys = (Model.ofDocument d options).template.keys) (request : Request) :
    (∃ e, request.compute (Model.ofDocument d options) effective = .error e) ↔
      request.Unanswered d options := by
  cases request with
  | setValue key value =>
      have hcontains : effective.contains key = true ↔
          key ∈ (Model.ofDocument d options).template.keys := by
        rw [OrderedMap.contains_iff_mem_keys, hkeys]
      rw [Unanswered, ← hcontains]
      cases hconstant : (Model.ofDocument d options).isConstant key with
      | true => simp [compute, hconstant]
      | false => cases hhas : effective.contains key <;> simp [compute, hconstant, hhas]
  | selectMode id =>
      have hgroups : (Model.ofDocument d options).modes.get? id = none ↔
          (selectMode id).Unanswered d options := by
        rw [OrderedMap.get?_eq_none_iff, Model.modes_ofDocument, Modes.mem_keys_ofGroups]
        simp [Unanswered]
      rw [← hgroups]
      cases hget : (Model.ofDocument d options).modes.get? id <;> simp [compute, hget]

/-! ### Whole runs -/

namespace Model

theorem afterAll_cons (m : Model) (effective : Settings) (request : Request)
    (requests : List Request) :
    m.afterAll effective (request :: requests) =
      m.afterAll (m.after effective request) requests := rfl

/-- What a request leaves is reached, also if the request is refused. -/
theorem Reached.after {m : Model} {effective : Settings} (h : m.Reached effective)
    (request : Request) : m.Reached (m.after effective request) := by
  unfold Model.after
  split
  · next outcome hcompute => exact h.step hcompute
  · exact h

/-- Every configuration of a run is reached by accepted requests alone. -/
theorem Reached.afterAll {m : Model} {effective : Settings} (h : m.Reached effective)
    (requests : List Request) : m.Reached (m.afterAll effective requests) := by
  induction requests generalizing effective with
  | nil => exact h
  | cons request requests ih => exact ih (h.after request)

/-- A record holds only keys of the configuration that are not constant. -/
theorem admitted_of_mem_records {m : Model} {effective : Settings} (h : m.Reached effective)
    {requests : List Request} {record : Settings} (hrecord : record ∈ m.records effective requests)
    {key : String} (hkey : key ∈ record.keys) :
    m.isConstant key = false ∧ key ∈ m.baseline.keys := by
  induction requests generalizing effective with
  | nil => exact absurd hrecord (by simp [records])
  | cons request requests ih =>
      simp only [records] at hrecord
      split at hrecord
      · next outcome hcompute =>
        rcases List.mem_cons.1 hrecord with rfl | hrest
        · obtain ⟨hmem, hconstant⟩ := (Request.changes_of_compute hcompute).2 key hkey
          exact ⟨hconstant, h.keys ▸ hmem⟩
        · exact ih (h.step hcompute) hrest
      · exact ih h hrecord

/-- The last record that mentions a key decides, and without one the value from before. -/
theorem get?_afterAll (m : Model) (effective : Settings) (requests : List Request)
    (key : String) :
    (m.afterAll effective requests).get? key =
      (lastMention key (m.records effective requests)).or (effective.get? key) := by
  induction requests generalizing effective with
  | nil => rfl
  | cons request requests ih =>
      rw [afterAll_cons, ih, after, records]
      cases hcompute : request.compute m effective with
      | error e => rfl
      | ok outcome =>
          simp only
          rw [lastMention_cons, Request.get?_of_compute hcompute, Option.or_assoc]

/-- A constant is in no record, so it keeps what the template gives it. -/
theorem Reached.get?_of_constant {d : Document} {options : LoadOptions} {effective : Settings}
    (h : (ofDocument d options).Reached effective) {key : String}
    (hconstant : (ofDocument d options).isConstant key = true) :
    effective.get? key = (ofDocument d options).template.get? key := by
  induction h with
  | baseline => exact get?_baseline_of_constant d options hconstant
  | @step effective request outcome reached accepted ih =>
      have hunchanged : key ∉ outcome.changes.keys := by
        intro hmem
        have hfree := ((Request.changes_of_compute accepted).2 key hmem).2
        exact absurd (hfree.symm.trans hconstant) (by simp)
      rw [Request.get?_of_compute accepted, (outcome.changes.get?_eq_none_iff key).2 hunchanged,
        Option.none_or, ih]

/-- However many requests are applied to a loaded document, the configuration has the keys of the
template in their order, each with the value of the last record that mentions it, and no record
mentions a constant. Refused are exactly the requests that the document has no answer to. -/
theorem last_writer_wins (d : Document) (options : LoadOptions) (requests : List Request) :
    let m := ofDocument d options
    let effective := m.afterAll m.baseline requests
    effective.keys = m.template.keys ∧
      (∀ record ∈ m.records m.baseline requests, ∀ key ∈ record.keys,
        m.isConstant key = false ∧ key ∈ m.template.keys) ∧
      (∀ key, effective.get? key =
        (lastMention key (m.records m.baseline requests)).or (m.baseline.get? key)) ∧
      (∀ key, m.isConstant key = true → effective.get? key = m.template.get? key) ∧
      ∀ request : Request,
        (∃ e, request.compute m effective = .error e) ↔ request.Unanswered d options := by
  intro m effective
  have hreached : m.Reached effective := Reached.baseline.afterAll requests
  have hbaseline : m.baseline.keys = m.template.keys := keys_baseline_ofDocument d options
  have hkeys : effective.keys = m.template.keys := hreached.keys.trans hbaseline
  refine ⟨hkeys, ?_, ?_, ?_, ?_⟩
  · intro record hrecord key hkey
    rw [← hbaseline]
    exact admitted_of_mem_records .baseline hrecord hkey
  · exact get?_afterAll m m.baseline requests
  · intro key hconstant
    exact hreached.get?_of_constant hconstant
  · exact Request.refused_iff hkeys

end Model

end AnnotatedEnv
