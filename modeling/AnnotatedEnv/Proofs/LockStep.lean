/-
Module: AnnotatedEnv.Proofs.LockStep
Purpose: Two sessions that may send other patches go through the same states.
Main exports: Task.Alike, Overlap.LockStep, Overlap.lockStep_poll, Overlap.lockStep_course
In lock step with itself a session holds lines that were shown, and whatever it still has to do
sends patches that were computed from shown lines.
-/
import AnnotatedEnv.Proofs.Alike

namespace AnnotatedEnv

/-! ### Lock step -/

namespace Task

variable {shown : List String → Prop} {options options' : SessionOptions} {s s' : SessionState}
  {task task' : Task (Paced MemoryHost)}

/-- Two calls, one of either session, have come equally far and go on alike. Whoever waits began on
the state `s`. -/
inductive Alike (options options' : SessionOptions) (shown : List String → Prop)
    (s : SessionState) : Task (Paced MemoryHost) → Task (Paced MemoryHost) → Prop where
  | fresh {begin : Paced MemoryHost → Call} (told : ∀ p, Session.Told shown (begin p)) :
      Alike options options' shown s (.fresh begin) (.fresh begin)
  | queued {c : Call} (told : Session.Told shown c) :
      Alike options options' shown s (.queued c) (.queued c)
  | waiting (isOverride : Bool) (polls : Nat) {wrote : Bool}
      {rest rest' : Dialogue (SessionState × Except SessionError Answer)}
      (alike : Dialogue.Alike shown (Session.Hands options shown s)
        (Session.TwinEnds options options' shown) wrote rest rest') :
      Alike options options' shown s (.waiting isOverride polls rest)
        (.waiting isOverride polls rest')
  | finished {result result' : Except SessionError Answer}
      (twins : Session.Twins options options' shown result result') :
      Alike options options' shown s (.finished result) (.finished result')

/-- A call that does not wait does not care for the state. -/
theorem Alike.of_not_waiting (h : Alike options options' shown s task task')
    (hnot : ∀ isOverride polls rest, task ≠ .waiting isOverride polls rest) :
    Alike options options' shown s' task task' := by
  cases h with
  | fresh told => exact .fresh told
  | queued told => exact .queued told
  | waiting isOverride polls alike => exact absurd rfl (hnot isOverride polls _)
  | finished twins => exact .finished twins

end Task

namespace Overlap

/-- Two sessions are in the same state over the same host, with calls that came equally far. -/
structure LockStep (options options' : SessionOptions) (shown : List String → Prop)
    (o o' : Overlap (Paced MemoryHost)) : Prop where
  options_eq : o.options = options
  options_eq' : o'.options = options'
  host_eq : o'.host = o.host
  state_eq : o'.state = o.state
  overriding_eq : o'.overriding = o.overriding
  holder_eq : o'.holder = o.holder
  line_eq : o'.line = o.line
  /-- The session holds lines that were shown. -/
  known : shown o.state.model.document.lines
  tasks : ∀ i : Nat, Option.Rel (Task.Alike options options' shown o.state) o.tasks[i]? o'.tasks[i]?

variable {shown : List String → Prop} {options options' : SessionOptions} {s s' : SessionState}
  {o o' : Overlap (Paced MemoryHost)} {tasks tasks' : List (Task (Paced MemoryHost))}
  {task task' : Task (Paced MemoryHost)} {c : Call} {i : Nat}

theorem host_record (o : Overlap (Paced MemoryHost)) (i : Nat) (isOverride : Bool)
    (r : Dialogue.Outcome (Paced MemoryHost)
      (Dialogue.Progress (SessionState × Except SessionError Answer))) :
    (o.record i isOverride r).host = r.host := by
  rcases r with ⟨value, host, events⟩
  cases value <;> rfl

theorem rel_set
    (h : ∀ j : Nat, Option.Rel (Task.Alike options options' shown s) tasks[j]? tasks'[j]?)
    (htask : Task.Alike options options' shown s task task') (i j : Nat) :
    Option.Rel (Task.Alike options options' shown s) (tasks.set i task)[j]?
      (tasks'.set i task')[j]? := by
  by_cases hj : j = i
  · subst hj
    rw [List.getElem?_set_self', List.getElem?_set_self']
    have hrel := h j
    generalize tasks[j]? = found at hrel ⊢
    generalize tasks'[j]? = found' at hrel ⊢
    cases hrel with
    | some _ => exact .some htask
    | none => exact .none
  · rw [tasks_set_of_ne hj, tasks_set_of_ne hj]
    exact h j

/-- Tasks alike keep two overlaps in lock step. -/
theorem LockStep.setTask (h : LockStep options options' shown o o')
    (htask : Task.Alike options options' shown o.state task task') (i : Nat) :
    LockStep options options' shown (o.setTask i task) (o'.setTask i task') :=
  { h with tasks := rel_set h.tasks htask i }

/-- When the holder of the state has returned, nobody waits, so the others are alike also on the
state that it leaves. -/
theorem rel_set_finished (h : LockStep options options' shown o o') (hexclusive : Exclusive o)
    (hholder : o.holder = some i) {result result' : Except SessionError Answer}
    (htwins : Session.Twins options options' shown result result') (j : Nat) :
    Option.Rel (Task.Alike options options' shown s) (o.tasks.set i (.finished result))[j]?
      (o'.tasks.set i (.finished result'))[j]? := by
  have hset := rel_set h.tasks (.finished htwins) i j
  have hnot : ∀ isOverride polls rest,
      (o.tasks.set i (.finished result))[j]? ≠ some (.waiting isOverride polls rest) := by
    intro isOverride polls rest hwaiting
    by_cases hj : j = i
    · subst hj
      exact absurd (eq_of_tasks_set_self hwaiting) (by simp)
    · rw [tasks_set_of_ne hj] at hwaiting
      exact hj (Option.some.inj ((hexclusive j _ _ _ hwaiting).symm.trans hholder))
  generalize (o.tasks.set i (.finished result))[j]? = found at hset hnot ⊢
  generalize (o'.tasks.set i (.finished result'))[j]? = found' at hset ⊢
  cases hset with
  | none => exact .none
  | some halike =>
      refine .some (halike.of_not_waiting ?_)
      rintro isOverride polls rest rfl
      exact hnot isOverride polls rest rfl

/-- Taking in outcomes that are alike keeps them in lock step. -/
theorem lockStep_record (h : LockStep options options' shown o o') (hexclusive : Exclusive o)
    (hholder : o.holder = some i) (isOverride : Bool)
    {r r' : Dialogue.Outcome (Paced MemoryHost)
      (Dialogue.Progress (SessionState × Except SessionError Answer))}
    (hr : Dialogue.Outcome.Alike shown (Session.Hands options shown o.state)
      (Session.TwinEnds options options' shown) r r') :
    LockStep options options' shown (o.record i isOverride r) (o'.record i isOverride r') := by
  rcases r with ⟨value, host, events⟩
  rcases r' with ⟨value', host', events'⟩
  obtain ⟨rfl, hvalue⟩ := hr
  cases hvalue with
  | waiting polls alike =>
      exact { h with host_eq := rfl, tasks := rel_set h.tasks (.waiting isOverride polls alike) i }
  | finished alike =>
      obtain ⟨hstate, hknown, htwins⟩ := alike
      refine ⟨h.options_eq, h.options_eq', rfl, hstate, ?_, ?_, ?_, hknown,
        rel_set_finished h hexclusive hholder htwins⟩
      · exact congrArg (fun b => if isOverride then false else b) h.overriding_eq
      · exact congrArg List.head? h.line_eq
      · exact congrArg List.tail h.line_eq

/-- So does carrying out a call that has the state. -/
theorem lockStep_enter (h : LockStep options options' shown o o') (hexclusive : Exclusive o)
    (hverify : options'.verifyBeforeOverride = options.verifyBeforeOverride)
    (hdistinct : NoCollision shown) (htold : Session.Told shown c) (hholder : o.holder = some i)
    (hbegin : shown o.host.host.buffer) (hend : shown (o.enter i c).host.host.buffer) :
    LockStep options options' shown (o.enter i c) (o'.enter i c) := by
  have halike := Session.alike_body hverify hdistinct h.known htold
  rw [enter, host_record, h.options_eq] at hend
  rw [enter, enter, h.options_eq, h.options_eq', h.state_eq, h.host_eq]
  exact lockStep_record h hexclusive hholder c.isOverride
    (halike.advance o.host (fun _ => hbegin) hend)

/-- So does asking for the state. -/
theorem lockStep_acquire (h : LockStep options options' shown o o') (hexclusive : Exclusive o)
    (hverify : options'.verifyBeforeOverride = options.verifyBeforeOverride)
    (hdistinct : NoCollision shown) (htold : Session.Told shown c) (i : Nat)
    (hbegin : shown o.host.host.buffer) (hend : shown (o.acquire i c).host.host.buffer) :
    LockStep options options' shown (o.acquire i c) (o'.acquire i c) := by
  have hholder := h.holder_eq
  rw [acquire] at hend ⊢
  rw [acquire, hholder]
  cases hcase : o.holder with
  | none =>
      rw [hcase] at hend
      have hentered : LockStep options options' shown
          { o with holder := some i, turns := o.turns ++ [i] }
          { o' with holder := some i, turns := o'.turns ++ [i] } :=
        { h with holder_eq := rfl }
      exact lockStep_enter hentered (hexclusive.take hcase i) hverify hdistinct htold rfl hbegin
        hend
  | some k =>
      have hqueued := h.setTask (.queued htold) i
      exact { hqueued with line_eq := congrArg (· ++ [i]) h.line_eq }

/-- So does the first poll of a call. -/
theorem lockStep_first (h : LockStep options options' shown o o') (hexclusive : Exclusive o)
    (hverify : options'.verifyBeforeOverride = options.verifyBeforeOverride)
    (hdistinct : NoCollision shown) (htold : Session.Told shown c) (i : Nat)
    (hbegin : shown o.host.host.buffer) (hend : shown (o.first i c).host.host.buffer) :
    LockStep options options' shown (o.first i c) (o'.first i c) := by
  rw [first] at hend ⊢
  rw [first, h.overriding_eq]
  split at hend
  · next hoverride =>
    rw [if_pos hoverride, if_pos hoverride]
    split at hend
    · next hbusy =>
      rw [if_pos hbusy, if_pos hbusy]
      have hturned := h.setTask (.finished (.error .busy)) i
      exact { hturned with }
    · next hfree =>
      rw [if_neg hfree, if_neg hfree]
      have hbegun : LockStep options options' shown { o with overriding := true }
          { o' with overriding := true } := { h with overriding_eq := rfl }
      exact lockStep_acquire hbegun hexclusive hverify hdistinct htold i hbegin hend
  · next hother =>
    rw [if_neg hother, if_neg hother]
    exact lockStep_acquire h hexclusive hverify hdistinct htold i hbegin hend

/-- Polling the same call in two sessions in lock step leaves them in lock step. -/
theorem lockStep_poll (h : LockStep options options' shown o o') (hexclusive : Exclusive o)
    (hverify : options'.verifyBeforeOverride = options.verifyBeforeOverride)
    (hdistinct : NoCollision shown) (i : Nat) (hbegin : shown o.host.host.buffer)
    (hend : shown (o.poll i).host.host.buffer) :
    LockStep options options' shown (o.poll i) (o'.poll i) := by
  have hrel := h.tasks i
  have hholder := hexclusive i
  rw [poll] at hend ⊢
  rw [poll]
  generalize o.tasks[i]? = found at hrel hend hholder ⊢
  generalize o'.tasks[i]? = found' at hrel ⊢
  cases hrel with
  | none => exact h
  | some halike =>
      cases halike with
      | fresh told =>
          rw [h.host_eq]
          exact lockStep_first h hexclusive hverify hdistinct (told o.host) i hbegin hend
      | queued told =>
          simp only [h.holder_eq] at hend ⊢
          split at hend
          · next hdue =>
            rw [if_pos hdue, if_pos hdue]
            exact lockStep_enter h hexclusive hverify hdistinct told hdue hbegin hend
          · next hnotDue =>
            rw [if_neg hnotDue, if_neg hnotDue]
            exact h
      | waiting isOverride polls alike =>
          cases polls with
          | zero =>
              simp only [host_record] at hend
              simp only [h.host_eq]
              exact lockStep_record h hexclusive (hholder _ _ _ rfl) isOverride
                (alike.resume o.host hbegin hend)
          | succ n => exact h.setTask (.waiting isOverride n alike) i
      | finished twins => exact h

/-! ### Whole courses -/

variable {host : MemoryHost} {state : SessionState} {delays : List Nat} {calls : List Call}
  {hs past : List Happening}

/-- Opening a session for some calls, with either options. -/
theorem lockStep_overlapping (hopen : Opened.OpensAs options host state) :
    LockStep options options' (Shown (overlapping options state host delays calls) calls hs)
      (overlapping options state host delays calls)
      (overlapping options' state host delays calls) := by
  refine ⟨rfl, rfl, rfl, rfl, rfl, rfl, rfl, ?_, fun i => ?_⟩
  · have hheld : Shown (overlapping options state host delays calls) calls hs host.buffer :=
      .held [] List.nil_prefix
    have hdocument : state.model.document = .ofLines host.buffer := by
      obtain ⟨cache, rfl⟩ := Opened.state_of_opensAs hopen
      rw [Session.opened, SessionState.model, Library.document_load]
    have hstate : (overlapping options state host delays calls).state = state := rfl
    rw [hstate, hdocument]
    exact hheld
  · simp only [overlapping, begin, List.map_map, List.getElem?_map]
    cases hc : calls[i]? with
    | none => exact .none
    | some c =>
        refine .some (.fresh fun _ lines htold => .told lines ?_)
        rw [← htold]
        exact List.mem_of_getElem? hc

/-- Two sessions that may send other patches for the same edit stay in lock step, whatever is
polled and whatever others do to the host. -/
theorem lockStep_course (hopen : Opened.OpensAs options host state)
    (hverify : options'.verifyBeforeOverride = options.verifyBeforeOverride)
    (hdistinct : NoCollision (Shown (overlapping options state host delays calls) calls hs))
    (hpast : past <+: hs) :
    LockStep options options' (Shown (overlapping options state host delays calls) calls hs)
      ((overlapping options state host delays calls).course past)
      ((overlapping options' state host delays calls).course past) := by
  induction past using List.reverseRecOn with
  | nil => exact lockStep_overlapping hopen
  | append_singleton past happening ih =>
      have hbefore : past <+: hs := (List.prefix_append past [happening]).trans hpast
      have hend : Shown (overlapping options state host delays calls) calls hs
          ((overlapping options state host delays calls).course
            (past ++ [happening])).host.host.buffer := .held _ hpast
      have h := ih hbefore
      have hexclusive := exclusive_course
        (exclusive_overlapping options state host delays calls) past
      rw [course_concat] at hend ⊢
      rw [course_concat]
      cases happening with
      | poll i => exact lockStep_poll h hexclusive hverify hdistinct i (.held past hbefore) hend
      | outside change => exact { h with host_eq := by simp only [happen, h.host_eq] }

end Overlap

end AnnotatedEnv
