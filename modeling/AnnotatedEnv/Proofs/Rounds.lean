/-
Module: AnnotatedEnv.Proofs.Rounds
Purpose: Overlapping calls are turned away exactly when they have to be, and all of them return.
Main exports: Overlap.owed, Overlap.Ready, Overlap.Polled.owed_lt_or, Overlap.Sound,
  Overlap.Sound.exists_ready, Overlap.Sound.settled_of_rounds, Overlap.Sound.settled_of_fair,
  Overlap.rejections_exact_and_all_return
A poll is owed for every call that has not returned, and for every poll that a host call is still to
take. No poll adds to what is owed, and as long as a call has not returned there is one whose next
poll takes from it.
-/
import Mathlib.Algebra.GroupWithZero.Nat
import AnnotatedEnv.Proofs.Rejection

namespace AnnotatedEnv

/-- How many polls a call is owed before it goes on. -/
def Task.owed {σ : Type} : Task σ → Nat
  | fresh _ => 1
  | queued _ => 1
  | waiting _ polls _ => polls + 1
  | finished _ => 0

namespace Dialogue

variable {α σ : Type} [Host σ]

/-- How many polls a dialogue that came some way is owed before it goes on. -/
def Progress.owed : Progress α → Nat
  | finished _ => 0
  | waiting polls _ => polls + 1

/-- A dialogue takes the polls that it is owed from the delays of its host. -/
theorem owed_advance (d : Dialogue α) (p : Paced σ) :
    (d.advance p).value.owed + (d.advance p).host.delays.sum = p.delays.sum := by
  induction d generalizing p with
  | done a => exact Nat.zero_add _
  | log event next ih => exact ih p
  | read next ih =>
      rcases p with ⟨host, _ | ⟨_ | n, delays⟩⟩
      · exact ih (Host.read host).result ⟨(Host.read host).host, []⟩
      · exact (ih (Host.read host).result ⟨(Host.read host).host, delays⟩).trans (by simp)
      · exact (List.sum_cons).symm
  | apply patch next ih =>
      rcases p with ⟨host, _ | ⟨_ | n, delays⟩⟩
      · exact ih (Host.apply patch host).result ⟨(Host.apply patch host).host, []⟩
      · exact (ih (Host.apply patch host).result ⟨(Host.apply patch host).host, delays⟩).trans
          (by simp)
      · exact (List.sum_cons).symm
  | save next ih =>
      rcases p with ⟨host, _ | ⟨_ | n, delays⟩⟩
      · exact ih (Host.save host).result ⟨(Host.save host).host, []⟩
      · exact (ih (Host.save host).result ⟨(Host.save host).host, delays⟩).trans (by simp)
      · exact (List.sum_cons).symm

theorem owed_resume (d : Dialogue α) (p : Paced σ) :
    (d.resume p).value.owed + (d.resume p).host.delays.sum = p.delays.sum := by
  cases d with
  | done a => exact owed_advance (.done a) p
  | log event next => exact owed_advance (.log event next) p
  | read next =>
      exact owed_advance (next (Host.read p.host).result) ⟨(Host.read p.host).host, p.delays⟩
  | apply patch next =>
      exact owed_advance (next (Host.apply patch p.host).result)
        ⟨(Host.apply patch p.host).host, p.delays⟩
  | save next =>
      exact owed_advance (next (Host.save p.host).result) ⟨(Host.save p.host).host, p.delays⟩

end Dialogue

namespace Overlap

variable {σ : Type}

/-- How many polls are owed before every call has returned. -/
def owed (o : Overlap (Paced σ)) : Nat := (o.tasks.map Task.owed).sum + o.host.delays.sum

/-- The next poll of call `i` takes from what is owed. -/
inductive Ready (o : Overlap (Paced σ)) (i : Nat) : Prop where
  /-- It has the state and has not returned. -/
  | holds {task : Task (Paced σ)} (holder : o.holder = some i) (task_eq : o.tasks[i]? = some task)
      (polled : task.isFresh = false) (pending : task.isFinished = false)
  /-- The state is there for the taking. -/
  | free (holder : o.holder = none) (unpolled : o.unpolled i = true)

variable {o o' : Overlap (Paced σ)} {i j : Nat} {c : Call}

/-! ### What a poll takes -/

theorem owed_set {tasks : List (Task σ)} {old : Task σ} (h : tasks[i]? = some old)
    (task : Task σ) :
    ((tasks.set i task).map Task.owed).sum + old.owed =
      (tasks.map Task.owed).sum + task.owed := by
  induction tasks generalizing i with
  | nil => exact absurd h (by simp)
  | cons first tasks ih =>
      cases i with
      | zero =>
          obtain rfl : first = old := by simpa using h
          simp only [List.set_cons_zero, List.map_cons, List.sum_cons]
          omega
      | succ n =>
          have hrest := ih (i := n) (by simpa using h)
          simp only [List.set_cons_succ, List.map_cons, List.sum_cons]
          omega

theorem owed_setTask {old : Task (Paced σ)} (h : o.tasks[i]? = some old)
    (task : Task (Paced σ)) : (o.setTask i task).owed + old.owed = o.owed + task.owed := by
  have hset := owed_set h task
  change ((o.tasks.set i task).map Task.owed).sum + o.host.delays.sum + _ = _
  rw [owed]
  omega

/-- A call that goes on is owed no more than the host still takes. -/
theorem owed_record {old : Task (Paced σ)} (h : o.tasks[i]? = some old) (isOverride : Bool)
    {r : Dialogue.Outcome (Paced σ)
      (Dialogue.Progress (SessionState × Except SessionError Answer))}
    (hr : r.value.owed + r.host.delays.sum = o.host.delays.sum) :
    (o.record i isOverride r).owed + old.owed = o.owed := by
  rcases r with ⟨value, after, events⟩
  cases value with
  | waiting polls rest =>
      have hset := owed_set h (.waiting isOverride polls rest)
      change ((o.tasks.set i (.waiting isOverride polls rest)).map Task.owed).sum +
        after.delays.sum + _ = _
      simp only [Dialogue.Progress.owed] at hr
      simp only [Task.owed, owed] at hset ⊢
      omega
  | finished ending =>
      have hset := owed_set h (.finished ending.2)
      change ((o.tasks.set i (.finished ending.2)).map Task.owed).sum + after.delays.sum + _ = _
      simp only [Dialogue.Progress.owed] at hr
      simp only [Task.owed, owed] at hset ⊢
      omega

theorem owed_overlapping (options : SessionOptions) (state : SessionState) (host : σ)
    (delays : List Nat) (calls : List Call) :
    (overlapping options state host delays calls).owed = calls.length + delays.sum := by
  have htasks : ((calls.map fun c => Task.fresh (σ := Paced σ) fun _ => c).map Task.owed).sum =
      calls.length := by
    simp [List.map_map, Function.comp_def, Task.owed]
  rw [owed, ← htasks]
  simp [overlapping, begin, Function.comp_def]

theorem Ready.congr (h : o.Ready i) (hholder : o'.holder = o.holder)
    (htask : o'.tasks[i]? = o.tasks[i]?) : o'.Ready i := by
  cases h with
  | holds holder task_eq polled pending =>
      exact .holds (hholder.trans holder) (htask.trans task_eq) polled pending
  | free holder unpolled =>
      refine .free (hholder.trans holder) ?_
      rwa [Overlap.unpolled, htask]

/-- Who was not polled yet is ready only if the state is free. -/
theorem Ready.holder_of_fresh (h : o.Ready i) {begin : Paced σ → Call}
    (htask : o.tasks[i]? = some (.fresh begin)) : o.holder = none := by
  cases h with
  | holds holder task_eq polled pending =>
      obtain rfl := Option.some.inj (htask.symm.trans task_eq)
      exact absurd polled (by simp [Task.isFresh])
  | free holder unpolled => exact holder

/-- While nobody has the state nobody stands in line. -/
def NoLine (o : Overlap (Paced σ)) : Prop := o.holder = none → o.line = []

/-- The state goes to the first in line, so it becomes free only if there is none. -/
theorem noLine_record (h : o.holder = some i) (isOverride : Bool)
    (r : Dialogue.Outcome (Paced σ)
      (Dialogue.Progress (SessionState × Except SessionError Answer))) :
    NoLine (o.record i isOverride r) := by
  intro hfree
  rcases r with ⟨value, after, events⟩
  cases value with
  | waiting polls rest => exact absurd (h.symm.trans hfree) (by simp)
  | finished ending =>
      change o.line.head? = none at hfree
      change o.line.tail = []
      rw [List.head?_eq_none_iff.1 hfree]
      rfl

variable [Host σ]

/-- A poll takes from what is owed, or its call was not ready and whoever is stays so. -/
theorem Polled.owed_lt_or (h : Polled o i o') :
    o'.owed < o.owed ∨
      (o'.owed = o.owed ∧ ¬ o.Ready i ∧ ∀ j, j ≠ i → o.Ready j → o'.Ready j) := by
  cases h with
  | idle polled stands =>
      refine Or.inr ⟨rfl, fun hready => ?_, fun j _ hready => hready⟩
      cases hready with
      | @holds task holder task_eq notFresh pending =>
          have hnone : o.result? i = none := by
            cases task <;> simp_all [result?, Task.isFinished]
          exact stands hnone (List.getElem?_eq_some_iff.1 task_eq).1 holder
      | free holder unpolled => exact absurd (polled.symm.trans unpolled) (by simp)
  | turnedAway task isOverride overriding =>
      have howed := owed_setTask task (.finished (.error .busy))
      change _ + 1 = _ + 0 at howed
      change (o.setTask i (.finished (.error .busy))).owed < _ ∨ _
      exact Or.inl (by omega)
  | @linesUp begin k task alone holder =>
      have howed := owed_setTask task (.queued (begin o.host))
      change _ + 1 = _ + 1 at howed
      refine Or.inr ⟨Nat.add_right_cancel howed, fun hready => ?_, fun j hj hready => ?_⟩
      · exact absurd (holder.symm.trans (hready.holder_of_fresh task)) (by simp)
      · exact hready.congr rfl (tasks_set_of_ne hj _)
  | @enters begin task alone free =>
      have howed := owed_record
        (o := { o.letIn (begin o.host) with holder := some i, turns := o.turns ++ [i] }) task
        (begin o.host).isOverride
        (Dialogue.owed_advance ((begin o.host).body o.options o.state) o.host)
      exact Or.inl (Nat.lt_of_succ_le (Nat.le_of_eq howed))
  | @begins c task holder =>
      have howed := owed_record task c.isOverride
        (Dialogue.owed_advance (c.body o.options o.state) o.host)
      exact Or.inl (Nat.lt_of_succ_le (Nat.le_of_eq howed))
  | @waits isOverride n rest task =>
      have howed := owed_setTask task (.waiting isOverride n rest)
      change _ + (n + 1 + 1) = _ + (n + 1) at howed
      exact Or.inl (by omega)
  | @resumes isOverride rest task =>
      have howed := owed_record task isOverride (Dialogue.owed_resume rest o.host)
      exact Or.inl (Nat.lt_of_succ_le (Nat.le_of_eq howed))

theorem owed_pollAll_le (o : Overlap (Paced σ)) (order : List Nat) :
    (o.pollAll order).owed ≤ o.owed := by
  induction order generalizing o with
  | nil => exact Nat.le_refl _
  | cons i order ih =>
      refine Nat.le_trans (ih (o.poll i)) ?_
      rcases (polled o i).owed_lt_or with hlt | ⟨heq, _⟩
      · exact Nat.le_of_lt hlt
      · exact Nat.le_of_eq heq

/-- Polls among which there is one of a call that is ready take from what is owed. -/
theorem Ready.owed_pollAll_lt (h : o.Ready i) {order : List Nat} (hi : i ∈ order) :
    (o.pollAll order).owed < o.owed := by
  induction order generalizing o with
  | nil => exact absurd hi (by simp)
  | cons j order ih =>
      rcases (polled o j).owed_lt_or with hlt | ⟨heq, hnotReady, hstays⟩
      · exact Nat.lt_of_le_of_lt (owed_pollAll_le (o.poll j) order) hlt
      · have hj : i ≠ j := by
          rintro rfl
          exact hnotReady h
        have hrest := ih (hstays i hj h) ((List.mem_cons.1 hi).resolve_left hj)
        rw [← heq]
        exact hrest

/-! ### Somebody is ready -/

theorem noLine_poll (hexclusive : Exclusive o) (h : NoLine o) (i : Nat) : NoLine (o.poll i) := by
  have hpolled := polled o i
  generalize o.poll i = o' at hpolled
  cases hpolled with
  | idle polled stands => exact h
  | turnedAway task isOverride overriding => exact h
  | linesUp task alone holder => exact fun hfree => absurd (holder.symm.trans hfree) (by simp)
  | enters task alone free => exact noLine_record rfl _ _
  | begins task holder => exact noLine_record holder _ _
  | waits task => exact h
  | resumes task => exact noLine_record (hexclusive _ _ _ _ task) _ _

variable {options : SessionOptions} {state : SessionState} {host : σ} {delays : List Nat}
  {calls : List Call} {done : List Nat}

/-- What overlapping calls keep up poll after poll. -/
structure Sound (options : SessionOptions) (state : SessionState) (host : σ) (calls : List Call)
    (o : Overlap (Paced σ)) : Prop where
  serves : ∃ done, Serves options state host calls o done
  exclusive : Exclusive o
  noLine : NoLine o

theorem sound_overlapping (options : SessionOptions) (state : SessionState) (host : σ)
    (delays : List Nat) (calls : List Call) :
    Sound options state host calls (overlapping options state host delays calls) :=
  ⟨⟨[], serves_overlapping options state host delays calls⟩,
    exclusive_overlapping options state host delays calls, fun _ => rfl⟩

theorem Sound.pollAll (h : Sound options state host calls o) (order : List Nat) :
    Sound options state host calls (o.pollAll order) := by
  induction order generalizing o with
  | nil => exact h
  | cons i order ih =>
      obtain ⟨done, hserves⟩ := h.serves
      exact ih ⟨serves_poll hserves i, exclusive_poll h.exclusive i,
        noLine_poll h.exclusive h.noLine i⟩

/-- As long as a call has not returned there is one that is ready: the one that has the state, or
else any that was not polled yet. -/
theorem Sound.exists_ready (h : Sound options state host calls o) (hpending : o.isSettled = false) :
    ∃ i < calls.length, o.Ready i := by
  obtain ⟨done, hserves⟩ := h.serves
  cases hholder : o.holder with
  | some i =>
      have hturn := hserves.holder_turn hholder
      have hi : i < calls.length := hserves.known i (List.mem_append_left _ hturn)
      refine ⟨i, hi, ?_⟩
      cases hserves.place i _ (List.getElem?_eq_getElem hi) with
      | fresh task noTurn noLine => exact absurd hturn noTurn
      | inLine task line => exact absurd hholder (hserves.holder_ne line)
      | due task holder host_eq => exact .holds hholder task rfl rfl
      | underWay task holder ending => exact .holds hholder task rfl rfl
      | served task turn result_ne => exact absurd turn (hserves.holder_not_done hholder)
      | turnedAway task noTurn noLine => exact absurd hturn noTurn
  | none =>
      obtain ⟨task, hmem, hunfinished⟩ := List.all_eq_false.1 hpending
      obtain ⟨i, hlt, htask⟩ := List.getElem_of_mem hmem
      have hi : i < calls.length := hserves.length_eq ▸ hlt
      have hget : o.tasks[i]? = some task := htask ▸ List.getElem?_eq_getElem hlt
      refine ⟨i, hi, ?_⟩
      cases hserves.place i _ (List.getElem?_eq_getElem hi) with
      | fresh task noTurn noLine => exact .free hholder (by simp [unpolled, task, Task.isFresh])
      | inLine task line => exact absurd line (by simp [h.noLine hholder])
      | due task holder host_eq => exact absurd (hholder.symm.trans holder) (by simp)
      | underWay task holder ending => exact absurd (hholder.symm.trans holder) (by simp)
      | served task' turn result_ne =>
          obtain rfl := Option.some.inj (hget.symm.trans task')
          exact absurd rfl hunfinished
      | turnedAway task' noTurn noLine =>
          obtain rfl := Option.some.inj (hget.symm.trans task')
          exact absurd rfl hunfinished

/-! ### Everybody returns -/

theorem poll_of_settled (h : o.isSettled = true) (i : Nat) : o.poll i = o := by
  rw [poll]
  cases htask : o.tasks[i]? with
  | none => rfl
  | some task =>
      have hfinished := List.all_eq_true.1 h task (List.mem_of_getElem? htask)
      cases task with
      | finished result => rfl
      | fresh begin => exact absurd hfinished (by simp [Task.isFinished])
      | queued call => exact absurd hfinished (by simp [Task.isFinished])
      | waiting isOverride polls rest => exact absurd hfinished (by simp [Task.isFinished])

theorem settled_pollAll (h : o.isSettled = true) (order : List Nat) :
    (o.pollAll order).isSettled = true := by
  induction order with
  | nil => exact h
  | cons i order ih =>
      change ((o.poll i).pollAll order).isSettled = true
      rwa [poll_of_settled h]

/-- When every round polls every call, all have returned after as many rounds as polls are owed. -/
theorem Sound.settled_of_rounds (h : Sound options state host calls o) {rounds : List (List Nat)}
    (hrounds : ∀ round ∈ rounds, ∀ i < calls.length, i ∈ round) (howed : o.owed ≤ rounds.length) :
    (o.pollAll rounds.flatten).isSettled = true := by
  induction rounds generalizing o with
  | nil =>
      by_contra hpending
      change ¬o.isSettled = true at hpending
      obtain ⟨i, hi, hready⟩ := h.exists_ready (by simpa using hpending)
      have hlt := hready.owed_pollAll_lt (List.mem_singleton_self i)
      simp only [List.length_nil] at howed
      omega
  | cons round rounds ih =>
      rw [List.flatten_cons, pollAll_append]
      cases hsettled : o.isSettled with
      | true => exact settled_pollAll (settled_pollAll hsettled round) _
      | false =>
          obtain ⟨i, hi, hready⟩ := h.exists_ready hsettled
          have hlt := hready.owed_pollAll_lt (hrounds round (by simp) i hi)
          refine ih (h.pollAll round) (fun r hr => hrounds r (List.mem_cons_of_mem _ hr)) ?_
          simp only [List.length_cons] at howed
          omega

/-- An endless order of polls forgets none of the first `n` calls. -/
def Fair (n : Nat) (schedule : Nat → Nat) : Prop :=
  ∀ i < n, ∀ t, ∃ t', t ≤ t' ∧ schedule t' = i

/-- The first `m` polls of an endless order, from time `t` on. -/
def polls (schedule : Nat → Nat) (t m : Nat) : List Nat := (List.range' t m).map schedule

/-- In a fair order all have returned after finitely many polls. -/
theorem Sound.settled_of_fair (h : Sound options state host calls o) {schedule : Nat → Nat}
    (hfair : Fair calls.length schedule) (t : Nat) :
    ∃ m, (o.pollAll (polls schedule t m)).isSettled = true := by
  induction howed : o.owed using Nat.strong_induction_on generalizing o t with
  | h owed ih =>
      cases hsettled : o.isSettled with
      | true => exact ⟨0, hsettled⟩
      | false =>
          obtain ⟨i, hi, hready⟩ := h.exists_ready hsettled
          obtain ⟨t', ht', hpoll⟩ := hfair i hi t
          have hmem : i ∈ polls schedule t (t' - t + 1) :=
            List.mem_map.2 ⟨t', List.mem_range'_1.2 ⟨ht', by omega⟩, hpoll⟩
          have hlt := hready.owed_pollAll_lt hmem
          obtain ⟨m, hm⟩ := ih _ (howed ▸ hlt) (h.pollAll _) (t + (t' - t + 1)) rfl
          refine ⟨t' - t + 1 + m, ?_⟩
          rwa [polls, ← List.range'_append_1, List.map_append, pollAll_append]

/-! ### Rejections and answers -/

/-- An override that comes while a refresh has the state, no other override being under way, is
carried out on what it finds after the refresh has returned. -/
theorem Sound.served_behind (h : Sound options state host calls o) {request : Request}
    (hi : calls[i]? = some (.override request)) (hunpolled : o.unpolled i = true)
    (halone : o.overriding = false) (hholder : o.holder = some j) (hj : calls[j]? = some c)
    (hrefresh : c.isOverride = false) {rest : List Nat} {result : Except SessionError Answer}
    (hresult : (o.pollAll (i :: rest)).result? i = some result) :
    ∃ front before back, i :: rest = front ++ (before ++ [i]) ++ back ∧
      let start := o.pollAll front
      let after := start.pollAll (before ++ [i])
      let ending := ((Call.override request).body options start.state).finish start.host.host
      (∃ earlier, start.result? j = some earlier) ∧ start.Turn i before result ∧
        result = ending.1.2 ∧ after.state = ending.1.1 ∧ after.host.host = ending.2 := by
  obtain ⟨done, hserves⟩ := h.serves
  have hne : result ≠ .error .busy := by
    rintro rfl
    have hbusy := (hserves.busy_iff hi hunpolled rest).1 hresult
    exact absurd (halone.symm.trans hbusy.2) (by simp)
  have hji : j ≠ i := by
    rintro rfl
    obtain rfl := Option.some.inj (hi.symm.trans hj)
    exact absurd hrefresh (by simp [Call.isOverride])
  obtain ⟨front, before, back, heq, hbegins, hturn⟩ :=
    exists_turn_of_result (Or.inl (hserves.task_of_unpolled hi hunpolled)) hresult hne
  have hfront := h.pollAll front
  obtain ⟨done', hserves'⟩ := hfront.serves
  have hending := ending_of_turn hfront.exclusive hbegins hturn
  rw [hserves'.options_eq] at hending
  exact ⟨front, before, back, heq, hserves.returned_of_begins hholder hji hbegins, hturn, hending⟩

/-- Whatever overlaps, and however long the host takes:
* An override is turned away exactly if, at its first poll, another one was polled that has not
  returned.
* Refreshes are never turned away.
* An override that is not turned away and comes while a refresh has the state is carried out after
  the refresh has returned.
* All calls have returned after as many rounds as there are calls and polls that the host takes, and
  after finitely many polls in any fair order. -/
theorem rejections_exact_and_all_return (options : SessionOptions) (state : SessionState)
    (host : σ) (delays : List Nat) (calls : List Call) :
    let polled := (overlapping options state host delays calls).pollAll
    let underWay past := ∃ j ∈ past, (∃ request, calls[j]? = some (.override request)) ∧
      (polled past).result? j = none
    (∀ past i rest request, calls[i]? = some (.override request) → i ∉ past →
      ((polled (past ++ i :: rest)).result? i = some (.error .busy) ↔ underWay past)) ∧
    (∀ order i c, calls[i]? = some c → c.isOverride = false →
      (polled order).result? i ≠ some (.error .busy)) ∧
    (∀ past i rest request j c result, calls[i]? = some (.override request) → i ∉ past →
      ¬underWay past → (polled past).holder = some j → calls[j]? = some c →
      c.isOverride = false → (polled (past ++ i :: rest)).result? i = some result →
      ∃ front before back, i :: rest = front ++ (before ++ [i]) ++ back ∧
        let start := polled (past ++ front)
        let after := start.pollAll (before ++ [i])
        let ending := ((Call.override request).body options start.state).finish start.host.host
        (∃ earlier, start.result? j = some earlier) ∧ start.Turn i before result ∧
          result = ending.1.2 ∧ after.state = ending.1.1 ∧ after.host.host = ending.2) ∧
    (∀ rounds : List (List Nat), (∀ round ∈ rounds, ∀ i < calls.length, i ∈ round) →
      calls.length + delays.sum ≤ rounds.length →
      ∀ i < calls.length, ∃ result, (polled rounds.flatten).result? i = some result) ∧
    (∀ schedule : Nat → Nat, Fair calls.length schedule →
      ∃ m, ∀ i < calls.length,
        ∃ result, (polled ((List.range m).map schedule)).result? i = some result) := by
  intro polled underWay
  have hbegin := sound_overlapping options state host delays calls
  have hreturned : ∀ order, (polled order).isSettled = true → ∀ i < calls.length,
      ∃ result, (polled order).result? i = some result := by
    intro order hsettled i hi
    obtain ⟨done, hserves⟩ := (hbegin.pollAll order).serves
    obtain ⟨result, htask⟩ := exists_result_of_settled hsettled (hserves.length_eq ▸ hi)
    exact ⟨result, by simp [result?, htask]⟩
  refine ⟨?_, ?_, ?_, ?_, ?_⟩
  · intro past i rest request hi hfirst
    exact (rejected_iff options state host delays hi hfirst rest).trans (and_iff_right rfl)
  · intro order i c hi hrefresh hbusy
    by_cases hmem : i ∈ order
    · obtain ⟨past, rest, rfl, hfirst⟩ := List.eq_append_cons_of_mem hmem
      have hoverride := ((rejected_iff options state host delays hi hfirst rest).1 hbusy).1
      exact absurd (hrefresh.symm.trans hoverride) (by simp)
    · have hunpolled : (polled order).unpolled i = true :=
        (unpolled_pollAll_iff order).2 ⟨unpolled_overlapping _ _ _ _ hi, hmem⟩
      obtain ⟨done, hserves⟩ := (hbegin.pollAll order).serves
      have hnone : (polled order).result? i = none :=
        Unbegun.result?_eq_none (Or.inl (hserves.task_of_unpolled hi hunpolled))
      exact absurd (hnone.symm.trans hbusy) (by simp)
  · intro past i rest request j c result hi hfirst halone hholder hj hrefresh hresult
    have hunpolled : (polled past).unpolled i = true :=
      (unpolled_pollAll_iff past).2 ⟨unpolled_overlapping _ _ _ _ hi, hfirst⟩
    have hfree : (polled past).overriding = false := by
      rw [← Bool.not_eq_true]
      exact fun hoverriding =>
        halone ((overriding_pollAll_iff options state host delays calls past).1 hoverriding)
    have hlater : polled (past ++ i :: rest) = (polled past).pollAll (i :: rest) :=
      pollAll_append _ past (i :: rest)
    rw [hlater] at hresult
    obtain ⟨front, before, back, heq, hserved⟩ :=
      (hbegin.pollAll past).served_behind hi hunpolled hfree hholder hj hrefresh hresult
    refine ⟨front, before, back, heq, ?_⟩
    have hstart : polled (past ++ front) = (polled past).pollAll front :=
      pollAll_append _ past front
    rw [hstart]
    exact hserved
  · intro rounds hrounds howed
    refine hreturned _ (hbegin.settled_of_rounds hrounds ?_)
    rwa [owed_overlapping]
  · intro schedule hfair
    obtain ⟨m, hm⟩ := hbegin.settled_of_fair hfair 0
    refine ⟨m, hreturned _ ?_⟩
    rwa [List.range_eq_range']

/-- A reload, which the host keeps waiting, and two overrides. -/
def contenders : List Call :=
  [.reload, .override (.setValue "A" "2"), .override (.setValue "A" "3")]

/-- None of them is polled yet, and somebody else has edited the host. -/
def contended : Overlap (Paced MemoryHost) :=
  overlapping {} overtaken.1 overtaken.2 [1] contenders

/-- The first override stands in line behind the reload, the second one is turned away, and all
return. -/
theorem contended_rejects_and_returns :
    (contended.pollAll ([0, 1] ++ 2 :: [])).result? 2 = some (.error .busy) ∧
      (contended.pollAll [0, 1, 2, 0]).result? 0 ≠ some (.error .busy) ∧
      (∃ front before back, 1 :: [0, 1] = front ++ (before ++ [1]) ++ back ∧
        ∃ earlier, (contended.pollAll ([0] ++ front)).result? 0 = some earlier) ∧
      (∀ i < 3, ∃ result,
        (contended.pollAll (List.replicate 4 [0, 1, 2]).flatten).result? i = some result) ∧
      ∃ m, ∀ i < 3, ∃ result,
        (contended.pollAll ((List.range m).map fun t => t % 3)).result? i = some result := by
  obtain ⟨hbusy, hrefresh, hbehind, hrounds, hfair⟩ := rejections_exact_and_all_return {}
    overtaken.1 overtaken.2 [1] contenders
  refine ⟨?_, ?_, ?_, ?_, ?_⟩
  · refine (hbusy [0, 1] 2 [] _ rfl (by decide)).2 ⟨1, by decide, ⟨_, rfl⟩, ?_⟩
    decide +kernel
  · exact hrefresh [0, 1, 2, 0] 0 .reload rfl rfl
  · have hanswer : ((contended.pollAll ([0] ++ 1 :: [0, 1])).result? 1).isSome = true := by
      decide +kernel
    obtain ⟨result, hresult⟩ := Option.isSome_iff_exists.1 hanswer
    have halone : ¬∃ j ∈ [0], (∃ request, contenders[j]? = some (.override request)) ∧
        (contended.pollAll [0]).result? j = none := by
      rintro ⟨j, hj, ⟨request, hrequest⟩, _⟩
      obtain rfl := List.mem_singleton.1 hj
      exact absurd hrequest (by simp [contenders])
    obtain ⟨front, before, back, heq, hearlier, _⟩ :=
      hbehind [0] 1 [0, 1] _ 0 .reload result rfl (by decide) halone (by decide +kernel) rfl rfl
        hresult
    exact ⟨front, before, back, heq, hearlier⟩
  · have hround : ∀ i < 3, i ∈ [0, 1, 2] := by decide
    refine hrounds (List.replicate 4 [0, 1, 2]) (fun round hmem => ?_) (by decide)
    rw [List.eq_of_mem_replicate hmem]
    exact hround
  · refine hfair (fun t => t % 3) fun i hi t => ⟨3 * t + i, by omega, ?_⟩
    change i < 3 at hi
    change (3 * t + i) % 3 = i
    omega

end Overlap

end AnnotatedEnv
