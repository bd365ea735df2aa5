/-
Module: AnnotatedEnv.Proofs.Override
Purpose: What an accepted request does to a configuration, and which configurations accepted
  requests lead to.
Main exports: Request.changes_of_compute, Request.get?_of_compute, Model.Reached,
  Model.Reached.keys
-/
import AnnotatedEnv.Override
import AnnotatedEnv.Proofs.Model

namespace AnnotatedEnv

/-- An accepted request puts its changes into the configuration, and it changes only keys that the
configuration has and that are not constant. -/
theorem Request.changes_of_compute {m : Model} {effective : Settings} {request : Request}
    {outcome : Outcome} (h : request.compute m effective = .ok outcome) :
    outcome = .ofChanges effective outcome.changes ∧
      ∀ key ∈ outcome.changes.keys, key ∈ effective.keys ∧ m.isConstant key = false := by
  cases request with
  | setValue key value =>
      simp only [compute] at h
      split at h
      · cases h
        exact ⟨rfl, fun key hkey => absurd hkey (by simp [OrderedMap.keys, OrderedMap.empty,
          Outcome.ofChanges])⟩
      · next hconstant =>
        split at h
        · next hcontains =>
          cases h
          refine ⟨rfl, fun k hk => ?_⟩
          have hk' : k = key := by
            simpa [OrderedMap.keys, OrderedMap.empty, OrderedMap.insert, Pairs.insert,
              Outcome.ofChanges] using hk
          rw [hk']
          exact ⟨(effective.contains_iff_mem_keys key).1 hcontains, by simpa using hconstant⟩
        · exact absurd h (by simp)
  | selectMode id =>
      simp only [compute] at h
      split at h
      · exact absurd h (by simp)
      · next group _ =>
        cases h
        refine ⟨rfl, fun k hk => ?_⟩
        obtain ⟨e, he, rfl⟩ := List.mem_map.1 hk
        have hadmits := (List.mem_filter.1 he).2
        simp only [admits, Bool.and_eq_true, Bool.not_eq_true'] at hadmits
        exact ⟨(effective.contains_iff_mem_keys e.1).1 hadmits.2, hadmits.1⟩

theorem Outcome.keys_ofChanges (effective changes : Settings) :
    (Outcome.ofChanges effective changes).effective.keys = effective.keys :=
  effective.keys_replaceAll changes.entries

/-- No request adds a key, drops one or moves one. -/
theorem Request.keys_of_compute {m : Model} {effective : Settings} {request : Request}
    {outcome : Outcome} (h : request.compute m effective = .ok outcome) :
    outcome.effective.keys = effective.keys := by
  rw [(changes_of_compute h).1]
  exact Outcome.keys_ofChanges effective outcome.changes

/-- A key that an accepted request changes has its new value, any other key keeps its value. -/
theorem Request.get?_of_compute {m : Model} {effective : Settings} {request : Request}
    {outcome : Outcome} (h : request.compute m effective = .ok outcome) (key : String) :
    outcome.effective.get? key = (outcome.changes.get? key).or (effective.get? key) := by
  obtain ⟨heffective, hadmitted⟩ := changes_of_compute h
  have hreplaced : outcome.effective = effective.replaceAll outcome.changes.entries :=
    congrArg Outcome.effective heffective
  rw [hreplaced, OrderedMap.get?_replaceAll _ outcome.changes.nodup]
  split
  · rfl
  · next hcontains =>
    have hmissing : key ∉ effective.keys := fun hmem =>
      hcontains ((effective.contains_iff_mem_keys key).2 hmem)
    have hunchanged : key ∉ outcome.changes.keys := fun hmem => hmissing (hadmitted key hmem).1
    rw [(effective.get?_eq_none_iff key).2 hmissing,
      (outcome.changes.get?_eq_none_iff key).2 hunchanged]
    rfl

/-- The configurations that accepted requests lead to, one after another, from the baseline. -/
inductive Model.Reached (m : Model) : Settings → Prop where
  | baseline : Reached m m.baseline
  | step {effective : Settings} {request : Request} {outcome : Outcome}
      (reached : Reached m effective) (accepted : request.compute m effective = .ok outcome) :
      Reached m outcome.effective

/-- No request adds, drops or moves a key. -/
theorem Model.Reached.keys {m : Model} {effective : Settings} (h : m.Reached effective) :
    effective.keys = m.baseline.keys := by
  induction h with
  | baseline => rfl
  | step _ accepted ih => rw [Request.keys_of_compute accepted, ih]

end AnnotatedEnv
