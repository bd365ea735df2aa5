/-
Module: AnnotatedEnv.Proofs.Polls
Purpose: All that one poll can do, and the turn behind every answer.
Main exports: Overlap.Polled, Overlap.polled, Overlap.unpolled_pollAll_iff,
  Overlap.turns_line_pollAll, Overlap.exists_turn_of_result
The invariants of overlapping calls are read off the cases of `Polled` instead of the branches of
`poll`.
-/
import AnnotatedEnv.Proofs.Turn

namespace AnnotatedEnv

def Task.isFresh {σ : Type} : Task σ → Bool
  | fresh _ => true
  | _ => false

namespace Overlap

variable {σ : Type}

theorem pollAll_append [WaitingHost σ] (o : Overlap σ) (order order' : List Nat) :
    o.pollAll (order ++ order') = (o.pollAll order).pollAll order' :=
  List.foldl_append

/-- An overlap that a call has been let into; from now on an override is under way if it is one. -/
def letIn (o : Overlap σ) (c : Call) : Overlap σ :=
  { o with overriding := o.overriding || c.isOverride }

/-- Whether call `i` is there and was not polled yet. -/
def unpolled (o : Overlap σ) (i : Nat) : Bool := o.tasks[i]?.any Task.isFresh

/-- Call `i`, which is `c`, was not polled yet or stands in line. -/
def Unbegun (o : Overlap (Paced σ)) (i : Nat) (c : Call) : Prop :=
  o.tasks[i]? = some (.fresh fun _ => c) ∨ o.tasks[i]? = some (.queued c)

variable {o o' : Overlap (Paced σ)} {i j : Nat} {c : Call}

theorem Unbegun.result?_eq_none (h : o.Unbegun i c) : o.result? i = none := by
  rcases h with htask | htask
  · simp [result?, htask]
  · simp [result?, htask]

theorem unpolled_setTask {task : Task (Paced σ)} (htask : task.isFresh = false) :
    (o.setTask i task).unpolled i = false := by
  change (o.tasks.set i task)[i]?.any Task.isFresh = false
  rw [List.getElem?_set_self']
  cases o.tasks[i]? with
  | none => rfl
  | some _ => exact htask

theorem unpolled_record (isOverride : Bool)
    (r : Dialogue.Outcome (Paced σ)
      (Dialogue.Progress (SessionState × Except SessionError Answer))) :
    (o.record i isOverride r).unpolled i = false := by
  rcases r with ⟨value, after, events⟩
  cases value with
  | waiting polls rest => exact unpolled_setTask (o := { o with host := after }) rfl
  | finished ending => exact unpolled_setTask (o := { o with host := after }) rfl

/-- The turns with the line behind them stay one list: when a call ends, the first in line has its
turn. -/
theorem turns_line_record (o : Overlap (Paced σ)) (i : Nat) (isOverride : Bool)
    (r : Dialogue.Outcome (Paced σ)
      (Dialogue.Progress (SessionState × Except SessionError Answer))) :
    (o.record i isOverride r).turns ++ (o.record i isOverride r).line = o.turns ++ o.line := by
  rcases r with ⟨value, after, events⟩
  cases value with
  | waiting polls rest => rfl
  | finished ending =>
      change (o.turns ++ o.line.head?.toList) ++ o.line.tail = _
      cases o.line <;> simp

/-! ### The cases of a poll -/

variable [Host σ]

/-- What a poll of call `i` makes of an overlap. -/
inductive Polled (o : Overlap (Paced σ)) (i : Nat) : Overlap (Paced σ) → Prop where
  /-- There is no such call, it has returned, or others are in front of it in line. -/
  | idle (polled : o.unpolled i = false)
      (stands : o.result? i = none → i < o.tasks.length → o.holder ≠ some i) : Polled o i o
  | turnedAway {begin : Paced σ → Call} (task : o.tasks[i]? = some (.fresh begin))
      (isOverride : (begin o.host).isOverride = true) (overriding : o.overriding = true) :
      Polled o i { o.setTask i (.finished (.error .busy)) with
        events := o.events ++ [SessionEvent.rejected] }
  | linesUp {begin : Paced σ → Call} {k : Nat} (task : o.tasks[i]? = some (.fresh begin))
      (alone : (begin o.host).isOverride = true → o.overriding = false)
      (holder : o.holder = some k) :
      Polled o i { (o.letIn (begin o.host)).setTask i (.queued (begin o.host)) with
        line := o.line ++ [i] }
  /-- It takes the state, which is free. -/
  | enters {begin : Paced σ → Call} (task : o.tasks[i]? = some (.fresh begin))
      (alone : (begin o.host).isOverride = true → o.overriding = false)
      (free : o.holder = none) :
      Polled o i ({ o.letIn (begin o.host) with
        holder := some i
        turns := o.turns ++ [i] }.enter i (begin o.host))
  /-- It was handed the state and begins. -/
  | begins {c : Call} (task : o.tasks[i]? = some (.queued c)) (holder : o.holder = some i) :
      Polled o i (o.enter i c)
  /-- It waits on. -/
  | waits {isOverride : Bool} {n : Nat}
      {rest : Dialogue (SessionState × Except SessionError Answer)}
      (task : o.tasks[i]? = some (.waiting isOverride (n + 1) rest)) :
      Polled o i (o.setTask i (.waiting isOverride n rest))
  /-- The host call it waited for takes place. -/
  | resumes {isOverride : Bool} {rest : Dialogue (SessionState × Except SessionError Answer)}
      (task : o.tasks[i]? = some (.waiting isOverride 0 rest)) :
      Polled o i (o.record i isOverride (rest.resume o.host))

/-- A call that asks for the state at its first poll is polled. -/
theorem polled_acquire {begin : Paced σ → Call} (htask : o.tasks[i]? = some (.fresh begin))
    (halone : (begin o.host).isOverride = true → o.overriding = false) :
    Polled o i ((o.letIn (begin o.host)).acquire i (begin o.host)) := by
  rw [acquire]
  split
  · next hfree => exact .enters htask halone hfree
  · next k hholder => exact .linesUp htask halone hholder

/-- Every poll does one of these. -/
theorem polled (o : Overlap (Paced σ)) (i : Nat) : Polled o i (o.poll i) := by
  rw [poll]
  cases htask : o.tasks[i]? with
  | none =>
      refine .idle (by simp [unpolled, htask]) fun _ hi => ?_
      exact absurd (List.getElem?_eq_none_iff.1 htask) (by omega)
  | some task =>
      cases task with
      | fresh begin =>
          cases hoverride : (begin o.host).isOverride with
          | false =>
              have hacquire := polled_acquire htask (by simp [hoverride])
              simpa [first, letIn, hoverride] using hacquire
          | true =>
              cases hoverriding : o.overriding with
              | true =>
                  have haway := Polled.turnedAway htask hoverride hoverriding
                  simpa [first, hoverride, hoverriding] using haway
              | false =>
                  have hacquire := polled_acquire htask fun _ => hoverriding
                  simpa [first, letIn, hoverride, hoverriding] using hacquire
      | queued c =>
          by_cases hholder : o.holder = some i
          · simpa [hholder] using Polled.begins htask hholder
          · have hidle := Polled.idle (by simp [unpolled, htask, Task.isFresh]) fun _ _ => hholder
            simpa [hholder] using hidle
      | waiting isOverride polls rest =>
          cases polls with
          | zero => exact .resumes htask
          | succ n => exact .waits htask
      | finished result =>
          refine .idle (by simp [unpolled, htask, Task.isFresh]) fun hnone => ?_
          simp [result?, htask] at hnone

/-! ### Calls that were polled -/

/-- A call that is polled stops being unpolled. -/
theorem Polled.unpolled_eq_false (h : Polled o i o') : o'.unpolled i = false := by
  cases h with
  | idle polled stands => exact polled
  | turnedAway task isOverride overriding => exact unpolled_setTask rfl
  | @linesUp begin k task alone holder =>
      exact unpolled_setTask (o := o.letIn (begin o.host)) rfl
  | enters task alone free => exact unpolled_record _ _
  | begins task holder => exact unpolled_record _ _
  | waits task => exact unpolled_setTask rfl
  | resumes task => exact unpolled_record _ _

/-- The unpolled calls are those that are not among the polls. -/
theorem unpolled_pollAll_iff (order : List Nat) :
    (o.pollAll order).unpolled i = true ↔ o.unpolled i = true ∧ i ∉ order := by
  induction order generalizing o with
  | nil => simp [pollAll]
  | cons j order ih =>
      change ((o.poll j).pollAll order).unpolled i = true ↔ _
      rw [ih]
      by_cases hj : i = j
      · subst hj
        simp [(polled o i).unpolled_eq_false]
      · rw [unpolled, tasks_poll_of_ne o hj, ← unpolled]
        simp [hj]

/-! ### The state and the line for it -/

/-- Who got the state or stands in line for it did or does so after every further poll. -/
theorem Polled.turns_line_subset (h : Polled o i o') :
    o.turns ++ o.line ⊆ o'.turns ++ o'.line := by
  cases h with
  | idle polled stands => exact List.Subset.refl _
  | turnedAway task isOverride overriding => exact List.Subset.refl _
  | linesUp task alone holder =>
      change o.turns ++ o.line ⊆ o.turns ++ (o.line ++ [i])
      rw [← List.append_assoc]
      exact List.subset_append_left _ _
  | enters task alone free =>
      rw [enter, turns_line_record]
      exact ((List.sublist_append_left o.turns [i]).append_right o.line).subset
  | begins task holder =>
      rw [enter, turns_line_record]
      exact List.Subset.refl _
  | waits task => exact List.Subset.refl _
  | resumes task =>
      rw [turns_line_record]
      exact List.Subset.refl _

theorem turns_line_pollAll (o : Overlap (Paced σ)) (order : List Nat) :
    o.turns ++ o.line ⊆ (o.pollAll order).turns ++ (o.pollAll order).line := by
  induction order generalizing o with
  | nil => exact List.Subset.refl _
  | cons i order ih => exact List.Subset.trans (polled o i).turns_line_subset (ih (o.poll i))

/-- The calls that got the state stay noted. -/
theorem turns_poll (o : Overlap (Paced σ)) (i : Nat) : o.turns ⊆ (o.poll i).turns := by
  have hpolled := polled o i
  generalize o.poll i = o' at hpolled
  cases hpolled with
  | idle polled stands => exact List.Subset.refl _
  | turnedAway task isOverride overriding => exact List.Subset.refl _
  | linesUp task alone holder => exact List.Subset.refl _
  | @enters begin task alone free =>
      have hentered := turns_record
        { o.letIn (begin o.host) with holder := some i, turns := o.turns ++ [i] } i
      exact List.Subset.trans (List.subset_append_left o.turns [i]) (hentered _ _).subset
  | begins task holder => exact (turns_record _ _ _ _).subset
  | waits task => exact List.Subset.refl _
  | resumes task => exact (turns_record _ _ _ _).subset

/-- A turn that was had stays had. -/
theorem turns_pollAll (o : Overlap (Paced σ)) (order : List Nat) :
    o.turns ⊆ (o.pollAll order).turns := by
  induction order generalizing o with
  | nil => exact List.Subset.refl _
  | cons i order ih => exact List.Subset.trans (turns_poll o i) (ih (o.poll i))

/-! ### The turn behind an answer -/

theorem Unbegun.poll_of_ne (h : o.Unbegun i c) (hj : j ≠ i) : (o.poll j).Unbegun i c := by
  rw [Unbegun, tasks_poll_of_ne o hj.symm]
  exact h

/-- Polled, it begins, is turned away, or stands in line. -/
theorem Unbegun.poll_self (h : o.Unbegun i c) :
    o.Begins i c ∨ (o.poll i).result? i = some (.error .busy) ∨ (o.poll i).Unbegun i c := by
  have hi : i < o.tasks.length := by
    rcases h with htask | htask
    · exact (List.getElem?_eq_some_iff.1 htask).1
    · exact (List.getElem?_eq_some_iff.1 htask).1
  have hcall : ∀ {begin}, o.tasks[i]? = some (.fresh begin) → begin o.host = c := by
    intro begin task
    rcases h with htask | htask
    · obtain rfl : begin = fun _ => c := by simpa using task.symm.trans htask
      rfl
    · exact absurd (task.symm.trans htask) (by simp)
  have hpolled := polled o i
  generalize o.poll i = o' at hpolled
  cases hpolled with
  | idle polled stands => exact Or.inr (Or.inr h)
  | turnedAway task isOverride overriding =>
      refine Or.inr (Or.inl ?_)
      change (o.setTask i _).result? i = _
      simp [result?, setTask, hi]
  | linesUp task alone holder =>
      have hqueued : (o.tasks.set i (.queued c))[i]? = some (.queued c) := tasks_set_self hi _
      rw [hcall task] at *
      exact Or.inr (Or.inr (Or.inr hqueued))
  | enters task alone free => exact Or.inl (.fresh task (hcall task) free (hcall task ▸ alone))
  | @begins c' task holder =>
      refine Or.inl (.due ?_ holder)
      rcases h with htask | htask
      · exact absurd (task.symm.trans htask) (by simp)
      · exact htask
  | waits task =>
      rcases h with htask | htask
      · exact absurd (task.symm.trans htask) (by simp)
      · exact absurd (task.symm.trans htask) (by simp)
  | resumes task =>
      rcases h with htask | htask
      · exact absurd (task.symm.trans htask) (by simp)
      · exact absurd (task.symm.trans htask) (by simp)

/-- An answer comes with a poll of the call. -/
theorem exists_returning_poll {result : Except SessionError Answer} (hpending : o.result? i = none)
    {order : List Nat} (hresult : (o.pollAll order).result? i = some result) :
    ∃ before back, order = before ++ [i] ++ back ∧ (o.pollAll before).result? i = none ∧
      (o.pollAll (before ++ [i])).result? i = some result := by
  induction order generalizing o with
  | nil => exact absurd (hpending.symm.trans hresult) (by simp)
  | cons j order ih =>
      cases hnext : (o.poll j).result? i with
      | none =>
          obtain ⟨before, back, rfl, hbefore, hafter⟩ := ih hnext hresult
          exact ⟨j :: before, back, rfl, hbefore, hafter⟩
      | some result' =>
          have hj : j = i := by
            by_contra hne
            rw [result?_of_tasks (tasks_poll_of_ne o (Ne.symm hne)), hpending] at hnext
            exact absurd hnext (by simp)
          subst hj
          have hlast : some result' = some result :=
            (result?_pollAll_of_finished hnext order).symm.trans hresult
          exact ⟨[], order, rfl, hpending, hnext.trans hlast⟩

/-- Behind every answer other than a rejection there is a turn. -/
theorem exists_turn_of_result {result : Except SessionError Answer} (h : o.Unbegun i c)
    {order : List Nat} (hresult : (o.pollAll order).result? i = some result)
    (hne : result ≠ .error .busy) :
    ∃ front before back, order = front ++ (before ++ [i]) ++ back ∧
      (o.pollAll front).Begins i c ∧ (o.pollAll front).Turn i before result := by
  induction order generalizing o with
  | nil => exact absurd (h.result?_eq_none.symm.trans hresult) (by simp)
  | cons j order ih =>
      have hlater : (o.poll j).Unbegun i c → ∃ front before back,
          j :: order = front ++ (before ++ [i]) ++ back ∧
            (o.pollAll front).Begins i c ∧ (o.pollAll front).Turn i before result := by
        intro hnext
        obtain ⟨front, before, back, rfl, hbegins, hturn⟩ := ih hnext hresult
        exact ⟨j :: front, before, back, rfl, hbegins, hturn⟩
      by_cases hj : j = i
      · subst hj
        rcases h.poll_self with hbegins | hbusy | hnext
        · obtain ⟨before, back, heq, hbefore, hafter⟩ :=
            exists_returning_poll hbegins.result?_eq_none hresult
          refine ⟨[], before, back, heq, hbegins, ?_, hbefore, hafter⟩
          cases before with
          | nil => rfl
          | cons first rest =>
              obtain ⟨rfl, _⟩ := List.cons.inj heq
              rfl
        · have hlast := (result?_pollAll_of_finished hbusy order).symm.trans hresult
          exact absurd (Option.some.inj hlast).symm hne
        · exact hlater hnext
      · exact hlater (h.poll_of_ne hj)

end Overlap

end AnnotatedEnv
