/-
Module: AnnotatedEnv.Proofs.Rejection
Purpose: Exactly which calls are turned away, and what becomes of an override that comes while a
  refresh has the state.
Main exports: Overlap.overrides, Overlap.SoleOverride, Overlap.soleOverride_poll,
  Overlap.rejected_iff, Overlap.result?_of_holder
At any time at most one override was let in and has not returned, and the session knows whether
there is one.
-/
import AnnotatedEnv.Proofs.Polls

namespace AnnotatedEnv

/-- Whether a call is an override that was let in and has not returned. -/
def Task.isOverriding {σ : Type} : Task σ → Bool
  | queued call => call.isOverride
  | waiting isOverride _ _ => isOverride
  | _ => false

namespace Overlap

variable {σ : Type}

/-- Whether call `i` is an override that was let in and has not returned. -/
def overrides (o : Overlap σ) (i : Nat) : Bool := o.tasks[i]?.any Task.isOverriding

/-- The override that was let in and has not returned is `p`, and the session knows of it. -/
structure SoleOverride (o : Overlap (Paced σ)) (p : Option Nat) : Prop where
  overriding_eq : o.overriding = p.isSome
  overrides_iff : ∀ j, o.overrides j = true ↔ p = some j

/-- The same for the calls other than `i`, which counts as one if `isOverride` is set. -/
structure SoleBut (o : Overlap (Paced σ)) (i : Nat) (isOverride : Bool) (p : Option Nat) :
    Prop where
  overriding_eq : o.overriding = p.isSome
  others : ∀ j, j ≠ i → (o.overrides j = true ↔ p = some j)
  self : isOverride = true ↔ p = some i

variable {o o' : Overlap (Paced σ)} {i j : Nat} {c : Call} {p : Option Nat} {isOverride : Bool}

theorem overrides_of_task {task : Task (Paced σ)} (htask : o.tasks[i]? = some task) :
    o.overrides i = task.isOverriding := by
  simp [overrides, htask]

/-! ### One override at a time -/

theorem SoleOverride.but (h : SoleOverride o p) {task : Task (Paced σ)}
    (htask : o.tasks[i]? = some task) : SoleBut o i task.isOverriding p := by
  refine ⟨h.overriding_eq, fun j _ => h.overrides_iff j, ?_⟩
  rw [← h.overrides_iff, overrides_of_task htask]

/-- What is noted of call `i` makes it count as it was counted. -/
theorem SoleBut.setTask (task : Task (Paced σ)) (h : SoleBut o i task.isOverriding p)
    (hi : i < o.tasks.length) : SoleOverride (o.setTask i task) p := by
  refine ⟨h.overriding_eq, fun j => ?_⟩
  by_cases hj : j = i
  · subst hj
    rw [← h.self, overrides_of_task (o := o.setTask j task) (tasks_set_self hi task)]
  · rw [← h.others j hj, overrides, overrides, Overlap.setTask, tasks_set_of_ne hj]

/-- A call that ends stops counting. -/
theorem SoleBut.ended (h : SoleBut o i isOverride p) :
    ∃ p', SoleBut { o with overriding := if isOverride then false else o.overriding } i false
      p' := by
  cases isOverride with
  | false => exact ⟨p, h.overriding_eq, h.others, h.self⟩
  | true =>
      obtain rfl : p = some i := h.self.1 rfl
      refine ⟨none, rfl, fun j hj => ?_, by simp⟩
      change o.overrides j = true ↔ _
      rw [h.others j hj]
      simpa using Ne.symm hj

/-- An override that is let in, no other being under way, is the one from now on. -/
theorem SoleOverride.letIn (h : SoleOverride o p) {begin : Paced σ → Call}
    (htask : o.tasks[i]? = some (.fresh begin))
    (halone : c.isOverride = true → o.overriding = false) :
    ∃ p', SoleBut (o.letIn c) i c.isOverride p' := by
  have hself := (h.but htask).self
  cases hc : c.isOverride with
  | false => exact ⟨p, by simp [Overlap.letIn, hc, h.overriding_eq], (h.but htask).others, hself⟩
  | true =>
      have hnone : p = none := by
        have hoverriding := h.overriding_eq
        rw [halone hc] at hoverriding
        simpa using hoverriding.symm
      refine ⟨some i, by simp [Overlap.letIn, hc], fun j hj => ?_, by simp⟩
      change o.overrides j = true ↔ _
      rw [h.overrides_iff, hnone]
      simpa using Ne.symm hj

theorem SoleBut.record (h : SoleBut o i isOverride p) (hi : i < o.tasks.length)
    (r : Dialogue.Outcome (Paced σ)
      (Dialogue.Progress (SessionState × Except SessionError Answer))) :
    ∃ p', SoleOverride (o.record i isOverride r) p' := by
  rcases r with ⟨value, after, events⟩
  cases value with
  | waiting polls rest =>
      have hwaiting : SoleBut { o with host := after, events := o.events ++ events } i
          (Task.waiting (σ := Paced σ) isOverride polls rest).isOverriding p :=
        ⟨h.overriding_eq, h.others, h.self⟩
      exact ⟨p, hwaiting.setTask _ hi⟩
  | finished ending =>
      obtain ⟨p', hended⟩ := h.ended
      have hfinished := hended.setTask (.finished ending.2) hi
      exact ⟨p', hfinished.overriding_eq, hfinished.overrides_iff⟩

/-- At first no override is under way. -/
theorem soleOverride_overlapping (options : SessionOptions) (state : SessionState) (host : σ)
    (delays : List Nat) (calls : List Call) :
    SoleOverride (overlapping options state host delays calls) none := by
  refine ⟨rfl, fun j => ?_⟩
  cases hc : calls[j]? <;> simp [overrides, overlapping, begin, hc, Task.isOverriding]

theorem unpolled_overlapping (options : SessionOptions) (state : SessionState) (host : σ)
    (delays : List Nat) {calls : List Call} (hc : calls[i]? = some c) :
    (overlapping options state host delays calls).unpolled i = true := by
  simp [unpolled, overlapping, begin, hc, Task.isFresh]

variable [Host σ]

/-- Polling any call keeps to one override at a time. -/
theorem soleOverride_poll (h : SoleOverride o p) (i : Nat) : ∃ p', SoleOverride (o.poll i) p' := by
  have hlt : ∀ {task}, o.tasks[i]? = some task → i < o.tasks.length :=
    fun htask => (List.getElem?_eq_some_iff.1 htask).1
  have hpolled := polled o i
  generalize o.poll i = o' at hpolled
  cases hpolled with
  | idle polled stands => exact ⟨p, h⟩
  | turnedAway task isOverride overriding =>
      have haway := (h.but task).setTask (.finished (.error .busy)) (hlt task)
      exact ⟨p, haway.overriding_eq, haway.overrides_iff⟩
  | @linesUp begin k task alone holder =>
      obtain ⟨p', hin⟩ := h.letIn task alone
      have hqueued := hin.setTask (.queued (begin o.host)) (hlt task)
      exact ⟨p', hqueued.overriding_eq, hqueued.overrides_iff⟩
  | @enters begin task alone free =>
      obtain ⟨p', hin⟩ := h.letIn task alone
      have hentered : SoleBut
          { o.letIn (begin o.host) with holder := some i, turns := o.turns ++ [i] } i
          (begin o.host).isOverride p' := ⟨hin.overriding_eq, hin.others, hin.self⟩
      exact hentered.record (hlt task) _
  | begins task holder => exact (h.but task).record (hlt task) _
  | @waits isOverride n rest task =>
      have hcounted := h.but task
      have hwaits : SoleBut o i (Task.waiting (σ := Paced σ) isOverride n rest).isOverriding p :=
        hcounted
      exact ⟨p, hwaits.setTask _ (hlt task)⟩
  | resumes task => exact (h.but task).record (hlt task) _

/-- At any time at most one override is under way. -/
theorem soleOverride_pollAll (h : SoleOverride o p) (order : List Nat) :
    ∃ p', SoleOverride (o.pollAll order) p' := by
  induction order generalizing o p with
  | nil => exact ⟨p, h⟩
  | cons i order ih =>
      obtain ⟨p', hnext⟩ := soleOverride_poll h i
      exact ih hnext

/-! ### Who is turned away -/

variable {options : SessionOptions} {state : SessionState} {host : σ} {delays : List Nat}
  {calls : List Call} {done : List Nat}

/-- The overrides under way are those that were polled and have not returned. -/
theorem Serves.overrides_iff (h : Serves options state host calls o done) (j : Nat) :
    o.overrides j = true ↔
      (∃ request, calls[j]? = some (.override request)) ∧ o.unpolled j = false ∧
        o.result? j = none := by
  have hcalls : ∀ c : Call, (∃ request, some c = some (Call.override request)) ↔
      c.isOverride = true := by
    intro c
    cases c <;> simp [Call.isOverride]
  cases hc : calls[j]? with
  | none =>
      have hnone : o.tasks[j]? = none := by
        rw [List.getElem?_eq_none_iff] at hc ⊢
        rw [h.length_eq]
        exact hc
      simp [overrides, hnone]
  | some c =>
      rw [hcalls]
      cases h.place j c hc with
      | fresh task noTurn noLine =>
          simp [overrides, unpolled, task, Task.isOverriding, Task.isFresh]
      | inLine task line =>
          simp [overrides, unpolled, result?, task, Task.isOverriding, Task.isFresh]
      | due task holder host_eq =>
          simp [overrides, unpolled, result?, task, Task.isOverriding, Task.isFresh]
      | underWay task holder ending =>
          simp [overrides, unpolled, result?, task, Task.isOverriding, Task.isFresh]
      | served task turn result_ne => simp [overrides, result?, task, Task.isOverriding]
      | turnedAway task noTurn noLine => simp [overrides, result?, task, Task.isOverriding]

theorem Serves.task_of_unpolled (h : Serves options state host calls o done)
    (hc : calls[i]? = some c) (hunpolled : o.unpolled i = true) :
    o.tasks[i]? = some (.fresh fun _ => c) := by
  cases h.place i c hc with
  | fresh task noTurn noLine => exact task
  | inLine task line => simp [unpolled, task, Task.isFresh] at hunpolled
  | due task holder host_eq => simp [unpolled, task, Task.isFresh] at hunpolled
  | underWay task holder ending => simp [unpolled, task, Task.isFresh] at hunpolled
  | served task turn result_ne => simp [unpolled, task, Task.isFresh] at hunpolled
  | turnedAway task noTurn noLine => simp [unpolled, task, Task.isFresh] at hunpolled

/-- At its first poll a call is turned away, or it gets the state or a place in line. -/
theorem first_poll (htask : o.tasks[i]? = some (.fresh fun _ => c)) :
    (c.isOverride = true ∧ o.overriding = true ∧ (o.poll i).result? i = some (.error .busy)) ∨
      ((c.isOverride = true → o.overriding = false) ∧
        i ∈ (o.poll i).turns ++ (o.poll i).line) := by
  have hi : i < o.tasks.length := (List.getElem?_eq_some_iff.1 htask).1
  rw [poll, htask]
  simp only [first]
  split
  · next hoverride =>
    split
    · next hoverriding =>
      refine Or.inl ⟨hoverride, hoverriding, ?_⟩
      simp [result?, setTask, hi]
    · next hfree => exact Or.inr ⟨fun _ => by simpa using hfree, mem_acquire _ i c⟩
  · next hother => exact Or.inr ⟨fun hoverride => absurd hoverride hother, mem_acquire o i c⟩

/-- A call answers that another override is under way exactly if it is an override and one is under
way at its first poll. -/
theorem Serves.busy_iff (h : Serves options state host calls o done) (hc : calls[i]? = some c)
    (hunpolled : o.unpolled i = true) (rest : List Nat) :
    (o.pollAll (i :: rest)).result? i = some (.error .busy) ↔
      c.isOverride = true ∧ o.overriding = true := by
  obtain ⟨done', hlast⟩ := serves_pollAll h (i :: rest)
  rcases first_poll (h.task_of_unpolled hc hunpolled) with
    ⟨hoverride, hoverriding, hbusy⟩ | ⟨hfree, hmem⟩
  · have hstays : (o.pollAll (i :: rest)).result? i = some (.error .busy) :=
      result?_pollAll_of_finished hbusy rest
    simp [hstays, hoverride, hoverriding]
  · have hin : i ∈ (o.pollAll (i :: rest)).turns ++ (o.pollAll (i :: rest)).line :=
      turns_line_pollAll (o.poll i) rest hmem
    refine iff_of_false (hlast.result_ne_busy hin) ?_
    rintro ⟨hoverride, hoverriding⟩
    simp [hfree hoverride] at hoverriding

/-- The session knows that an override is under way exactly if one was polled that has not
returned. -/
theorem overriding_pollAll_iff (options : SessionOptions) (state : SessionState) (host : σ)
    (delays : List Nat) (calls : List Call) (past : List Nat) :
    ((overlapping options state host delays calls).pollAll past).overriding = true ↔
      ∃ j ∈ past, (∃ request, calls[j]? = some (.override request)) ∧
        ((overlapping options state host delays calls).pollAll past).result? j = none := by
  obtain ⟨done, hserves⟩ :=
    serves_pollAll (serves_overlapping options state host delays calls) past
  obtain ⟨p, hsole⟩ :=
    soleOverride_pollAll (soleOverride_overlapping options state host delays calls) past
  have hpolled : ∀ {j request}, calls[j]? = some (.override request) →
      (((overlapping options state host delays calls).pollAll past).unpolled j = false ↔
        j ∈ past) := by
    intro j request hc
    rw [← Bool.not_eq_true, unpolled_pollAll_iff]
    simp [unpolled_overlapping options state host delays hc]
  constructor
  · intro hoverriding
    rw [hsole.overriding_eq] at hoverriding
    obtain ⟨j, rfl⟩ := Option.isSome_iff_exists.1 hoverriding
    obtain ⟨⟨request, hc⟩, hunpolled, hnone⟩ :=
      (hserves.overrides_iff j).1 ((hsole.overrides_iff j).2 rfl)
    exact ⟨j, (hpolled hc).1 hunpolled, ⟨request, hc⟩, hnone⟩
  · rintro ⟨j, hj, ⟨request, hc⟩, hnone⟩
    have hp : p = some j := (hsole.overrides_iff j).1
      ((hserves.overrides_iff j).2 ⟨⟨request, hc⟩, (hpolled hc).2 hj, hnone⟩)
    rw [hsole.overriding_eq, hp]
    rfl

/-- Once polled a call answers that another override is under way exactly if it is an override and
at its first poll one was polled that had not returned. -/
theorem rejected_iff (options : SessionOptions) (state : SessionState) (host : σ)
    (delays : List Nat) {calls : List Call} (hc : calls[i]? = some c) {past : List Nat}
    (hi : i ∉ past) (rest : List Nat) :
    let polled := (overlapping options state host delays calls).pollAll
    (polled (past ++ i :: rest)).result? i = some (.error .busy) ↔
      c.isOverride = true ∧ ∃ j ∈ past, (∃ request, calls[j]? = some (.override request)) ∧
        (polled past).result? j = none := by
  intro polled
  obtain ⟨done, hserves⟩ :=
    serves_pollAll (serves_overlapping options state host delays calls) past
  have hunpolled : (polled past).unpolled i = true :=
    (unpolled_pollAll_iff past).2 ⟨unpolled_overlapping _ _ _ _ hc, hi⟩
  rw [← overriding_pollAll_iff, ← hserves.busy_iff hc hunpolled rest, ← pollAll_append]

/-! ### Who waits instead -/

/-- Who has the state has returned by the time at which somebody else begins. -/
theorem Serves.returned_of_begins (h : Serves options state host calls o done)
    (hholder : o.holder = some j) (hj : j ≠ i) {front : List Nat}
    (hbegins : (o.pollAll front).Begins i c) :
    ∃ result, (o.pollAll front).result? j = some result := by
  obtain ⟨done', hfront⟩ := serves_pollAll h front
  have hnotHolder : (o.pollAll front).holder ≠ some j := by
    cases hbegins with
    | fresh task call free alone => simp [free]
    | due task holder => simpa [holder] using Ne.symm hj
  have hturn : j ∈ done' ++ (o.pollAll front).holder.toList := by
    rw [← hfront.turns_eq]
    exact turns_pollAll o front (h.holder_turn hholder)
  have hdone : j ∈ done' := by
    rcases List.mem_append.1 hturn with hdone | hheld
    · exact hdone
    · exact absurd (Option.mem_toList.1 hheld) hnotHolder
  have hresult : (o.pollAll front).result? j ∈ done'.map (o.pollAll front).result? :=
    List.mem_map_of_mem hdone
  rw [hfront.results_eq] at hresult
  obtain ⟨result, _, heq⟩ := List.mem_map.1 hresult
  exact ⟨result, heq.symm⟩

end Overlap

end AnnotatedEnv
