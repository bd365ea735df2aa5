/-
Module: AnnotatedEnv.Proofs.Turn
Purpose: The turn of one call among overlapping calls, from the poll with which it begins to the
  poll with which it returns.
Main exports: Overlap.Exclusive, Overlap.Begins, Overlap.Turn, Overlap.tasks_poll_of_ne,
  Overlap.exclusive_poll, Overlap.ending_of_turn
Only the holder of the state talks to the host, so whatever the others do during its turn, a call
ends as its body ends on the state and the host that it found.
-/
import Mathlib.Data.Nat.Find
import AnnotatedEnv.Proofs.Overlap

namespace AnnotatedEnv

namespace Overlap

variable {σ : Type}

/-- Nobody waits for the host but the call that has the state. -/
def Exclusive (o : Overlap (Paced σ)) : Prop :=
  ∀ j isOverride polls rest, o.tasks[j]? = some (.waiting isOverride polls rest) → o.holder = some j

/-- Call `i` is `c` and gets to work with its next poll. -/
inductive Begins (o : Overlap (Paced σ)) (i : Nat) (c : Call) : Prop where
  /-- It was not polled yet, the state is free, and no other override is in its way. -/
  | fresh {begin : Paced σ → Call} (task : o.tasks[i]? = some (.fresh begin))
      (call : begin o.host = c) (free : o.holder = none)
      (alone : c.isOverride = true → o.overriding = false)
  /-- It stood in line and was handed the state. -/
  | due (task : o.tasks[i]? = some (.queued c)) (holder : o.holder = some i)

/-- Call `i` has just returned with this ending. -/
structure Returned (o : Overlap (Paced σ)) (i : Nat)
    (ending : (SessionState × Except SessionError Answer) × σ) : Prop where
  result_eq : o.result? i = some ending.1.2
  state_eq : o.state = ending.1.1
  host_eq : o.host.host = ending.2

variable {o : Overlap (Paced σ)} {i j : Nat} {task : Task (Paced σ)}
  {r : Dialogue.Outcome (Paced σ) (Dialogue.Progress (SessionState × Except SessionError Answer))}

theorem Begins.result?_eq_none {c : Call} (h : o.Begins i c) : o.result? i = none := by
  cases h with
  | fresh task call free alone => simp [result?, task]
  | due task holder => simp [result?, task]

theorem Begins.lt_length {c : Call} (h : o.Begins i c) : i < o.tasks.length := by
  cases h with
  | fresh task call free alone => exact (List.getElem?_eq_some_iff.1 task).1
  | due task holder => exact (List.getElem?_eq_some_iff.1 task).1

/-! ### What is noted of one call -/

theorem tasks_record_of_ne (o : Overlap (Paced σ)) (hj : j ≠ i) (isOverride : Bool)
    (r : Dialogue.Outcome (Paced σ)
      (Dialogue.Progress (SessionState × Except SessionError Answer))) :
    (o.record i isOverride r).tasks[j]? = o.tasks[j]? := by
  rcases r with ⟨value, after, events⟩
  cases value with
  | waiting polls rest => exact tasks_set_of_ne hj _
  | finished ending => exact tasks_set_of_ne hj _

/-- Taking in that a call has ended makes it return. -/
theorem returned_record (hi : i < o.tasks.length) (isOverride : Bool)
    {a : SessionState × Except SessionError Answer} (hr : r.value = .finished a) :
    (o.record i isOverride r).Returned i (a, r.host.host) := by
  rcases r with ⟨value, after, events⟩
  obtain rfl : value = .finished a := hr
  refine ⟨?_, rfl, rfl⟩
  have htask : (o.record i isOverride ⟨.finished a, after, events⟩).tasks[i]? =
      some (.finished a.2) := tasks_set_self hi _
  simp [result?, htask]

/-- What the holder `i` came to leaves itself waiting at most. -/
theorem exclusive_record (hexclusive : Exclusive o) (hholder : o.holder = some i)
    (isOverride : Bool) : Exclusive (o.record i isOverride r) := by
  intro j isOverride' polls' rest' hwaiting
  by_cases hj : j = i
  · subst hj
    rcases r with ⟨value, after, events⟩
    cases value with
    | waiting polls rest => exact hholder
    | finished ending =>
        change (o.tasks.set j (.finished ending.2))[j]? = _ at hwaiting
        exact absurd (eq_of_tasks_set_self hwaiting) (by simp)
  · rw [tasks_record_of_ne o hj] at hwaiting
    exact absurd (Option.some.inj (hholder.symm.trans (hexclusive j _ _ _ hwaiting))).symm hj

/-- What is noted of a call that does not wait leaves nobody waiting who was not. -/
theorem Exclusive.setTask (h : Exclusive o)
    (htask : ∀ isOverride polls rest, task = .waiting isOverride polls rest → o.holder = some i) :
    Exclusive (o.setTask i task) := by
  intro j isOverride polls rest hwaiting
  change (o.tasks.set i task)[j]? = _ at hwaiting
  by_cases hj : j = i
  · subst hj
    exact htask isOverride polls rest (eq_of_tasks_set_self hwaiting)
  · rw [tasks_set_of_ne hj] at hwaiting
    exact h j isOverride polls rest hwaiting

/-- While nobody has the state nobody waits, so anybody may take it. -/
theorem Exclusive.take (h : Exclusive o) (hfree : o.holder = none) (i : Nat) :
    Exclusive { o with holder := some i, turns := o.turns ++ [i] } := by
  intro j isOverride polls rest hwaiting
  exact absurd ((h j isOverride polls rest hwaiting).symm.trans hfree) (by simp)

/-- Before the first poll nobody has the state. -/
theorem exclusive_overlapping (options : SessionOptions) (state : SessionState) (host : σ)
    (delays : List Nat) (calls : List Call) :
    Exclusive (overlapping options state host delays calls) := by
  intro j isOverride polls rest hwaiting
  simp [overlapping, begin] at hwaiting

theorem pollAll_concat [WaitingHost σ] (o : Overlap σ) (order : List Nat) (i : Nat) :
    o.pollAll (order ++ [i]) = (o.pollAll order).poll i := by
  simp [pollAll]

variable [Host σ] {c : Call} {ending : (SessionState × Except SessionError Answer) × σ}
  {result : Except SessionError Answer}

theorem tasks_acquire_of_ne (o : Overlap (Paced σ)) (hj : j ≠ i) (c : Call) :
    (o.acquire i c).tasks[j]? = o.tasks[j]? := by
  rw [acquire]
  split
  · exact tasks_record_of_ne _ hj _ _
  · exact tasks_set_of_ne hj _

/-- Polling one call notes nothing of the others. -/
theorem tasks_poll_of_ne (o : Overlap (Paced σ)) (hj : j ≠ i) :
    (o.poll i).tasks[j]? = o.tasks[j]? := by
  rw [poll]
  split
  · simp only [first]
    split
    · split
      · exact tasks_set_of_ne hj _
      · exact tasks_acquire_of_ne _ hj _
    · exact tasks_acquire_of_ne _ hj _
  · split
    · exact tasks_record_of_ne _ hj _ _
    · rfl
  · exact tasks_set_of_ne hj _
  · exact tasks_record_of_ne _ hj _ _
  · rfl
  · rfl

/-! ### One call at a time -/

theorem exclusive_acquire (h : Exclusive o) (i : Nat) (c : Call) : Exclusive (o.acquire i c) := by
  rw [acquire]
  cases hholder : o.holder with
  | none =>
      exact exclusive_record (o := { o with holder := some i, turns := o.turns ++ [i] })
        (h.take hholder i) rfl _
  | some k => exact h.setTask (fun _ _ _ hqueued => absurd hqueued (by simp))

/-- Polling one call leaves nobody waiting but the holder. -/
theorem exclusive_poll (h : Exclusive o) (i : Nat) : Exclusive (o.poll i) := by
  rw [poll]
  split
  · simp only [first]
    split
    · split
      · exact h.setTask (fun _ _ _ hbusy => absurd hbusy (by simp))
      · exact exclusive_acquire (o := { o with overriding := true }) h i _
    · exact exclusive_acquire h i _
  · split
    · next hholder => exact exclusive_record h hholder _
    · exact h
  · next hwaiting => exact h.setTask fun _ _ _ _ => h i _ _ _ hwaiting
  · next hwaiting => exact exclusive_record h (h i _ _ _ hwaiting) _
  · exact h
  · exact h

/-- The state never has more than one holder. -/
theorem exclusive_pollAll (h : Exclusive o) (order : List Nat) : Exclusive (o.pollAll order) := by
  induction order generalizing o with
  | nil => exact h
  | cons i order ih => exact ih (exclusive_poll h i)

/-- Polling a call that has not got the state leaves the host to the one that has. -/
theorem host_poll_of_holder_ne (h : Exclusive o) (hholder : o.holder = some i) (hj : j ≠ i) :
    (o.poll j).host = o.host := by
  have hne : o.holder ≠ some j := by
    rw [hholder]
    exact fun heq => hj (Option.some.inj heq).symm
  rw [poll]
  split
  · simp only [first, acquire, hholder]
    split
    · split <;> rfl
    · rfl
  · rw [if_neg hne]
  · rfl
  · next hwaiting => exact absurd (h j _ _ _ hwaiting) hne
  · rfl
  · rfl

/-! ### Turns -/

/-- Polls that begin and end with one of call `i`, which returns with the last of them. -/
structure Turn (o : Overlap (Paced σ)) (i : Nat) (before : List Nat)
    (result : Except SessionError Answer) : Prop where
  first : (before ++ [i]).head? = some i
  pending : (o.pollAll before).result? i = none
  returns : (o.pollAll (before ++ [i])).result? i = some result

/-- Call `i` is at work, and what is left of it ends like this. -/
def AtWork (o : Overlap (Paced σ)) (i : Nat)
    (ending : (SessionState × Except SessionError Answer) × σ) : Prop :=
  ∃ isOverride polls rest, o.tasks[i]? = some (.waiting isOverride polls rest) ∧
    rest.finish o.host.host = ending

theorem AtWork.result?_eq_none (h : o.AtWork i ending) : o.result? i = none := by
  obtain ⟨isOverride, polls, rest, htask, _⟩ := h
  simp [result?, htask]

/-- A call that has returned stays so. -/
theorem result?_pollAll_of_finished (h : o.result? i = some result) (order : List Nat) :
    (o.pollAll order).result? i = some result := by
  induction order generalizing o with
  | nil => exact h
  | cons j order ih =>
      refine ih ?_
      by_cases hj : j = i
      · subst hj
        have htask : o.tasks[j]? = some (.finished result) := by
          rw [result?] at h
          split at h
          · next htask => rw [htask, Option.some.inj h]
          · exact absurd h (by simp)
        rw [poll, htask]
        exact h
      · rw [result?_of_tasks (tasks_poll_of_ne o (Ne.symm hj)), h]

/-- A call whose progress is taken in is at work with the same ending or has returned with it. -/
theorem atWork_or_returned_record (hi : i < o.tasks.length) (isOverride : Bool)
    (hr : r.value.ending r.host.host = ending) :
    (o.record i isOverride r).AtWork i ending ∨ (o.record i isOverride r).Returned i ending := by
  cases hvalue : r.value with
  | waiting polls rest =>
      rcases r with ⟨value, after, events⟩
      obtain rfl : value = .waiting polls rest := hvalue
      exact Or.inl ⟨isOverride, polls, rest, tasks_set_self hi _, hr⟩
  | finished a =>
      rw [hvalue] at hr
      subst hr
      exact Or.inr (returned_record hi isOverride hvalue)

/-- With the poll with which it begins a call carries out its body on what it finds. -/
theorem exists_record_of_begins (h : o.Begins i c) :
    ∃ o₁ : Overlap (Paced σ), o₁.tasks = o.tasks ∧
      o.poll i = o₁.record i c.isOverride ((c.body o.options o.state).advance o.host) := by
  cases h with
  | fresh task call free alone =>
      rw [poll, task]
      simp only [first, call, acquire, free]
      split
      · next hoverride =>
        rw [if_neg (by simp [alone hoverride])]
        exact ⟨{ o with overriding := true, holder := some i, turns := o.turns ++ [i] }, rfl, rfl⟩
      · exact ⟨{ o with holder := some i, turns := o.turns ++ [i] }, rfl, rfl⟩
  | due task holder =>
      rw [poll, task]
      simp only [if_pos holder]
      exact ⟨o, rfl, rfl⟩

/-- The poll with which a call begins takes it to its first wait or to its end. -/
theorem poll_of_begins (h : o.Begins i c) :
    (o.poll i).AtWork i ((c.body o.options o.state).finish o.host.host) ∨
      (o.poll i).Returned i ((c.body o.options o.state).finish o.host.host) := by
  obtain ⟨o₁, htasks, hpoll⟩ := exists_record_of_begins h
  rw [hpoll]
  exact atWork_or_returned_record (htasks ▸ h.lt_length) _
    (Dialogue.ending_advance (c.body o.options o.state) o.host)

/-- Polling the call at work takes it to its next wait or to its end. -/
theorem AtWork.poll_self (h : o.AtWork i ending) :
    (o.poll i).AtWork i ending ∨ (o.poll i).Returned i ending := by
  obtain ⟨isOverride, polls, rest, htask, hrest⟩ := h
  have hi : i < o.tasks.length := (List.getElem?_eq_some_iff.1 htask).1
  rw [poll, htask]
  cases polls with
  | zero => exact atWork_or_returned_record hi _ ((Dialogue.ending_resume rest o.host).trans hrest)
  | succ n => exact Or.inl ⟨isOverride, n, rest, tasks_set_self hi _, hrest⟩

/-- Polling somebody else touches neither the call at work nor its host. -/
theorem AtWork.poll_of_ne (hexclusive : Exclusive o) (h : o.AtWork i ending) (hj : j ≠ i) :
    (o.poll j).AtWork i ending := by
  obtain ⟨isOverride, polls, rest, htask, hrest⟩ := h
  have hholder := hexclusive i isOverride polls rest htask
  refine ⟨isOverride, polls, rest, (tasks_poll_of_ne o hj.symm).trans htask, ?_⟩
  rw [host_poll_of_holder_ne hexclusive hholder hj, hrest]

/-- A call at work is at work until it returns, whoever is polled. -/
theorem AtWork.pollAll (hexclusive : Exclusive o) (h : o.AtWork i ending) {order : List Nat}
    (hpending : (o.pollAll order).result? i = none) : (o.pollAll order).AtWork i ending := by
  induction order generalizing o with
  | nil => exact h
  | cons j order ih =>
      refine ih (exclusive_poll hexclusive j) ?_ hpending
      by_cases hj : j = i
      · subst hj
        rcases h.poll_self with hwork | hreturned
        · exact hwork
        · have hresult := result?_pollAll_of_finished hreturned.result_eq order
          exact absurd (hpending.symm.trans hresult) (by simp)
      · exact h.poll_of_ne hexclusive hj

/-- A call returns with the answer of its body on the state and the host that it found when it
began, and leaves what the body leaves. -/
theorem ending_of_turn (hexclusive : Exclusive o) (hbegins : o.Begins i c) {before : List Nat}
    (hturn : o.Turn i before result) :
    let ending := (c.body o.options o.state).finish o.host.host
    let after := o.pollAll (before ++ [i])
    result = ending.1.2 ∧ after.state = ending.1.1 ∧ after.host.host = ending.2 := by
  intro ending after
  have hreturned : after.Returned i ending := by
    have hresult := hturn.returns
    rw [pollAll_concat] at hresult
    change (o.pollAll (before ++ [i])).Returned i ending
    rw [pollAll_concat]
    cases before with
    | nil =>
        rcases poll_of_begins hbegins with hwork | hreturned
        · exact absurd (hwork.result?_eq_none.symm.trans hresult) (by simp)
        · exact hreturned
    | cons first rest =>
        obtain rfl : first = i := by simpa using hturn.first
        have hpending := hturn.pending
        have hwork : (o.pollAll (first :: rest)).AtWork first ending := by
          rcases poll_of_begins hbegins with hwork | hreturned
          · exact hwork.pollAll (exclusive_poll hexclusive first) hpending
          · have hdone := result?_pollAll_of_finished hreturned.result_eq rest
            exact absurd (hpending.symm.trans hdone) (by simp)
        rcases hwork.poll_self with hstill | hreturned
        · exact absurd (hstill.result?_eq_none.symm.trans hresult) (by simp)
        · exact hreturned
  have hanswer : some result = some ending.1.2 := hturn.returns.symm.trans hreturned.result_eq
  exact ⟨Option.some.inj hanswer, hreturned.state_eq, hreturned.host_eq⟩

/-- What an override returns and leaves, told without its call. -/
theorem ending_of_override_turn (hexclusive : Exclusive o) {request : Request}
    (hbegins : o.Begins i (.override request)) {before : List Nat}
    (hturn : o.Turn i before result) :
    let ending := (Session.override o.options request o.state).finish o.host.host
    let after := o.pollAll (before ++ [i])
    result = ending.1.2.map .applied ∧ after.state = ending.1.1 ∧ after.host.host = ending.2 := by
  have hending := ending_of_turn hexclusive hbegins hturn
  rw [Call.body, Dialogue.finish_bind] at hending
  exact hending

/-- A turn of an override ends at one of its points. -/
theorem overridden_of_turn (hexclusive : Exclusive o) {request : Request}
    (hbegins : o.Begins i (.override request)) {before : List Nat}
    (hturn : o.Turn i before result) :
    let after := o.pollAll (before ++ [i])
    ∃ own, result = own.map .applied ∧
      Session.Overridden o.options request o.state o.host.host after.state after.host.host own := by
  intro after
  obtain ⟨hresult, hstate, hhost⟩ := ending_of_override_turn hexclusive hbegins hturn
  refine ⟨_, hresult, ?_⟩
  rw [hstate, hhost]
  exact Session.overridden_run o.options request o.state o.host.host

/-! ### Calls return -/

/-- Call `i` returns if it is polled often enough. -/
def Returns (o : Overlap (Paced σ)) (i : Nat) : Prop :=
  ∃ n result, (o.pollAll (List.replicate n i)).result? i = some result

theorem Returns.of_poll (h : (o.poll i).Returns i) : o.Returns i := by
  obtain ⟨n, result, hresult⟩ := h
  exact ⟨n + 1, result, hresult⟩

/-- A call that waits returns if it does once its wait is over. -/
theorem returns_of_waiting {isOverride : Bool} {polls : Nat}
    {rest : Dialogue (SessionState × Except SessionError Answer)}
    (hresume : ∀ o : Overlap (Paced σ), i < o.tasks.length →
      (o.record i isOverride (rest.resume o.host)).Returns i)
    (htask : o.tasks[i]? = some (.waiting isOverride polls rest)) : o.Returns i := by
  have hi : i < o.tasks.length := (List.getElem?_eq_some_iff.1 htask).1
  induction polls generalizing o with
  | zero =>
      apply Returns.of_poll
      rw [poll, htask]
      exact hresume o hi
  | succ n ih =>
      apply Returns.of_poll
      rw [poll, htask]
      exact ih (tasks_set_self hi _) (by simpa [setTask] using hi)

/-- A call that is to ask the host returns if it does once the host has answered. -/
theorem returns_of_asks {isOverride : Bool}
    {d : Dialogue (SessionState × Except SessionError Answer)} (hasks : d.Asks)
    (hresume : ∀ (o : Overlap (Paced σ)) p events, i < o.tasks.length →
      (o.record i isOverride ((d.resume p).after events)).Returns i)
    (p : Paced σ) (events : List Event) (hi : i < o.tasks.length) :
    (o.record i isOverride ((d.advance p).after events)).Returns i := by
  cases hdelay : p.delays.headD 0 with
  | zero =>
      rw [hasks.advance_now hdelay]
      exact hresume o p.begun events hi
  | succ n =>
      rw [hasks.advance_later hdelay]
      exact returns_of_waiting (fun o hi => hresume o o.host [] hi) (tasks_set_self hi _)

/-- Every dialogue makes finitely many host calls, so a call that is taken from wait to wait
returns. -/
theorem returns_of_advance (d : Dialogue (SessionState × Except SessionError Answer))
    (p : Paced σ) (events : List Event) (hi : i < o.tasks.length) (isOverride : Bool) :
    (o.record i isOverride ((d.advance p).after events)).Returns i := by
  induction d generalizing o p events with
  | done a =>
      refine ⟨0, a.2, ?_⟩
      have htask : (o.record i isOverride ((Dialogue.done a).advance p |>.after events)).tasks[i]? =
          some (.finished a.2) := tasks_set_self hi _
      simp [pollAll, result?, htask]
  | log event next ih =>
      have hnext := ih p (events ++ [event]) hi
      rwa [← Dialogue.Outcome.after_after] at hnext
  | read next ih =>
      refine returns_of_asks (.read next) (fun o p events hi => ?_) p events hi
      have hnext := ih (Host.read p).result (Host.read p).host (events ++ (Host.read p).events) hi
      rwa [← Dialogue.Outcome.after_after] at hnext
  | apply patch next ih =>
      refine returns_of_asks (.apply patch next) (fun o p events hi => ?_) p events hi
      have hnext := ih (Host.apply patch p).result (Host.apply patch p).host
        (events ++ (Host.apply patch p).events) hi
      rwa [← Dialogue.Outcome.after_after] at hnext
  | save next ih =>
      refine returns_of_asks (.save next) (fun o p events hi => ?_) p events hi
      have hnext := ih (Host.save p).result (Host.save p).host (events ++ (Host.save p).events) hi
      rwa [← Dialogue.Outcome.after_after] at hnext

/-- Going on after a wait is going on from the answer that was waited for. -/
theorem returns_of_resume (d : Dialogue (SessionState × Except SessionError Answer))
    (hi : i < o.tasks.length) (isOverride : Bool) :
    (o.record i isOverride (d.resume o.host)).Returns i := by
  cases d with
  | done a => exact returns_of_advance (.done a) o.host [] hi isOverride
  | log event next => exact returns_of_advance next o.host [event] hi isOverride
  | read next => exact returns_of_advance (next _) _ (Host.read o.host).events hi isOverride
  | apply patch next =>
      exact returns_of_advance (next _) _ (Host.apply patch o.host).events hi isOverride
  | save next => exact returns_of_advance (next _) _ (Host.save o.host).events hi isOverride

/-- A call at work returns. -/
theorem AtWork.returns (h : o.AtWork i ending) : o.Returns i := by
  obtain ⟨isOverride, polls, rest, htask, _⟩ := h
  exact returns_of_waiting (fun _ hi => returns_of_resume rest hi isOverride) htask

/-- A call that begins has a turn: polled on and on it returns. -/
theorem exists_turn (h : o.Begins i c) : ∃ before result, o.Turn i before result := by
  have hreturns : ∃ n, (o.pollAll (List.replicate (n + 1) i)).result? i ≠ none := by
    rcases poll_of_begins h with hwork | hreturned
    · obtain ⟨n, result, hresult⟩ := hwork.returns
      have hpolled : (o.pollAll (List.replicate (n + 1) i)).result? i = some result := hresult
      exact ⟨n, by simp [hpolled]⟩
    · exact ⟨0, by simp [pollAll, hreturned.result_eq]⟩
  classical
  -- The turn ends with the first poll after which there is a result.
  obtain ⟨result, hresult⟩ := Option.ne_none_iff_exists'.1 (Nat.find_spec hreturns)
  refine ⟨List.replicate (Nat.find hreturns) i, result, ?_, ?_, ?_⟩
  · cases Nat.find hreturns <;> rfl
  · cases hn : Nat.find hreturns with
    | zero => exact h.result?_eq_none
    | succ n => exact not_not.1 (Nat.find_min hreturns (by omega))
  · rwa [List.replicate_succ'] at hresult

end Overlap

end AnnotatedEnv
