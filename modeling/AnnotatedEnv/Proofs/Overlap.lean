/-
Module: AnnotatedEnv.Proofs.Overlap
Purpose: Calls that overlap do what the same calls do one after another.
Main exports: Serial, Overlap.result?, Overlap.Place, Overlap.Serves, Overlap.serves_poll,
  Overlap.serves_pollAll, Overlap.pollAll_serializable
A call keeps the state to itself from its first step to its last, so between two of its steps nobody
else touches the state or the host. What the holder still has to do therefore ends as its whole
body ends on what the calls before it left.
-/
import Mathlib.Data.List.Nodup
import Mathlib.Data.List.Induction
import AnnotatedEnv.Host.Memory
import AnnotatedEnv.Proofs.Pace
import AnnotatedEnv.Proofs.Session
import AnnotatedEnv.Session.Overlap

namespace AnnotatedEnv

/-! ### Calls one after another -/

/-- What calls leave that are carried out one after another, each without a break. -/
structure Serial (σ : Type) where
  state : SessionState
  host : σ
  results : List (Except SessionError Answer)

namespace Serial

variable {σ : Type} [Host σ]

def next (options : SessionOptions) (s : Serial σ) (c : Call) : Serial σ :=
  let ending := (c.body options s.state).finish s.host
  ⟨ending.1.1, ending.2, s.results ++ [ending.1.2]⟩

def run (options : SessionOptions) (state : SessionState) (host : σ) (calls : List Call) :
    Serial σ :=
  calls.foldl (next options) ⟨state, host, []⟩

/-- A call moves a serial run on by what it ends with. -/
theorem next_of_ending {options : SessionOptions} {s : Serial σ} {c : Call}
    {ending : (SessionState × Except SessionError Answer) × σ}
    (h : ending = (c.body options s.state).finish s.host) :
    s.next options c = ⟨ending.1.1, ending.2, s.results ++ [ending.1.2]⟩ := by
  rw [next, ← h]

/-- A serial run carries out its last call last. -/
theorem run_concat (options : SessionOptions) (state : SessionState) (host : σ)
    (calls : List Call) (c : Call) :
    run options state host (calls ++ [c]) = (run options state host calls).next options c := by
  simp [run]

end Serial

def callsAt (calls : List Call) (numbers : List Nat) : List Call :=
  numbers.filterMap fun i => calls[i]?

/-- What the calls with these numbers leave, one after another. -/
def served {σ : Type} [Host σ] (options : SessionOptions) (state : SessionState) (host : σ)
    (calls : List Call) (numbers : List Nat) : Serial σ :=
  Serial.run options state host (callsAt calls numbers)

theorem callsAt_concat {calls : List Call} {i : Nat} {c : Call} (hc : calls[i]? = some c)
    (numbers : List Nat) : callsAt calls (numbers ++ [i]) = callsAt calls numbers ++ [c] := by
  simp [callsAt, hc]

theorem served_concat {σ : Type} [Host σ] {options : SessionOptions} {state : SessionState}
    {host : σ} {calls : List Call} {i : Nat} {c : Call} (hc : calls[i]? = some c)
    (numbers : List Nat) :
    served options state host calls (numbers ++ [i]) =
      (served options state host calls numbers).next options c := by
  rw [served, callsAt_concat hc, Serial.run_concat]
  rfl

/-- No call that got the state answers that another override is under way. -/
theorem Call.result_ne_busy {σ : Type} [Host σ] (options : SessionOptions) (s : SessionState)
    (c : Call) (host : σ) : ((c.body options s).finish host).1.2 ≠ .error .busy := by
  have hmap : ∀ {α : Type} (result : Except SessionError α) (f : α → Answer),
      result ≠ .error .busy → result.map f ≠ .error .busy := by
    intro α result f hne
    cases result with
    | error e => simpa [Except.map] using hne
    | ok a => simp [Except.map]
  cases c with
  | override request =>
      rw [body, Dialogue.finish_bind]
      exact hmap _ _ (Session.overridden_run options request s host).result_ne_busy
  | externalChange lines =>
      rw [body, Dialogue.finish_bind]
      apply hmap
      change ((Session.refresh s (.ofLines lines)).run host).value.2 ≠ _
      rw [(Session.refresh_run s (.ofLines lines) host).2]
      split <;> simp
  | reload =>
      rw [body, Dialogue.finish_bind]
      apply hmap
      change ((Session.reload s).run host).value.2 ≠ _
      rw [(Session.reload_run s host).2]
      split
      · simp
      · rw [(Session.refresh_run _ _ _).2]
        split <;> simp

namespace Overlap

variable {σ : Type}

def result? (o : Overlap σ) (i : Nat) : Option (Except SessionError Answer) :=
  match o.tasks[i]? with
  | some (.finished result) => some result
  | _ => none

theorem result?_of_tasks {o o' : Overlap σ} {i : Nat} (h : o'.tasks[i]? = o.tasks[i]?) :
    o'.result? i = o.result? i := by
  rw [result?, result?, h]

theorem results_of_tasks {o o' : Overlap σ} {numbers : List Nat}
    (h : ∀ j ∈ numbers, o'.tasks[j]? = o.tasks[j]?) :
    numbers.map o'.result? = numbers.map o.result? :=
  List.map_congr_left fun j hj => result?_of_tasks (h j hj)

/-- Turns are only ever added. -/
theorem turns_record (o : Overlap σ) (i : Nat) (isOverride : Bool)
    (r : Dialogue.Outcome σ
      (Dialogue.Progress (SessionState × Except SessionError Answer))) :
    o.turns <+: (o.record i isOverride r).turns := by
  rcases r with ⟨value, after, events⟩
  cases value with
  | waiting polls rest => exact List.prefix_refl _
  | finished ending => exact List.prefix_append _ _

theorem tasks_set_self {tasks : List (Task σ)} {i : Nat} (hi : i < tasks.length) (task : Task σ) :
    (tasks.set i task)[i]? = some task := by
  simp [hi]

theorem eq_of_tasks_set_self {tasks : List (Task σ)} {i : Nat} {task found : Task σ}
    (h : (tasks.set i task)[i]? = some found) : task = found := by
  rw [List.getElem?_set_self'] at h
  obtain ⟨_, _, heq⟩ := Option.map_eq_some_iff.1 h
  exact heq

theorem tasks_set_of_ne {tasks : List (Task σ)} {i j : Nat} (hne : j ≠ i) (task : Task σ) :
    (tasks.set i task)[j]? = tasks[j]? :=
  List.getElem?_set_ne fun heq => hne heq.symm

/-- Once every call has returned, each of them has a result. -/
theorem exists_result_of_settled {o : Overlap σ} {i : Nat} (hsettled : o.isSettled = true)
    (hi : i < o.tasks.length) : ∃ result, o.tasks[i]? = some (.finished result) := by
  have htask := List.getElem?_eq_getElem hi
  have hfinished := List.all_eq_true.1 hsettled _ (List.getElem_mem hi)
  cases hcase : o.tasks[i] with
  | finished result => exact ⟨result, by rw [htask, hcase]⟩
  | fresh begin => rw [hcase] at hfinished; exact absurd hfinished (by simp [Task.isFinished])
  | queued call => rw [hcase] at hfinished; exact absurd hfinished (by simp [Task.isFinished])
  | waiting isOverride polls rest =>
      rw [hcase] at hfinished
      exact absurd hfinished (by simp [Task.isFinished])

/-! ### The invariant -/

variable [Host σ]

/-- How far call `i`, which is `c`, has come, if `done` have returned and left `s`. -/
inductive Place (options : SessionOptions) (o : Overlap (Paced σ)) (done : List Nat)
    (s : Serial σ) (i : Nat) (c : Call) : Prop where
  | fresh (task : o.tasks[i]? = some (.fresh fun _ => c)) (noTurn : i ∉ o.turns)
      (noLine : i ∉ o.line)
  | inLine (task : o.tasks[i]? = some (.queued c)) (line : i ∈ o.line)
  /-- It was handed the state and has not begun. -/
  | due (task : o.tasks[i]? = some (.queued c)) (holder : o.holder = some i)
      (host_eq : o.host.host = s.host)
  /-- It waits for the host. What is left of it ends as the whole would. -/
  | underWay {polls : Nat} {rest : Dialogue (SessionState × Except SessionError Answer)}
      (task : o.tasks[i]? = some (.waiting c.isOverride polls rest)) (holder : o.holder = some i)
      (ending : rest.finish o.host.host = (c.body options s.state).finish s.host)
  | served {result : Except SessionError Answer} (task : o.tasks[i]? = some (.finished result))
      (turn : i ∈ done) (result_ne : result ≠ .error .busy)
  | turnedAway (task : o.tasks[i]? = some (.finished (.error .busy))) (noTurn : i ∉ o.turns)
      (noLine : i ∉ o.line)

/-- The state, the host, the turns and the answers are those of the calls `done`, one after
another. -/
structure Ledger (options : SessionOptions) (state : SessionState) (host : σ) (calls : List Call)
    (o : Overlap (Paced σ)) (done : List Nat) : Prop where
  options_eq : o.options = options
  length_eq : o.tasks.length = calls.length
  turns_eq : o.turns = done ++ o.holder.toList
  nodup : (o.turns ++ o.line).Nodup
  known : ∀ i ∈ o.turns ++ o.line, i < calls.length
  state_eq : o.state = (served options state host calls done).state
  host_eq : o.holder = none →
    o.host.host = (served options state host calls done).host
  results_eq : done.map o.result? =
    (served options state host calls done).results.map some

/-- The invariant: the ledger is right, and every call has its place. -/
structure Serves (options : SessionOptions) (state : SessionState) (host : σ) (calls : List Call)
    (o : Overlap (Paced σ)) (done : List Nat) : Prop extends
    Ledger options state host calls o done where
  place : ∀ i c, calls[i]? = some c →
    Place options o done (served options state host calls done) i c

variable {options : SessionOptions} {state : SessionState} {host : σ} {calls : List Call}
  {o o' : Overlap (Paced σ)} {done : List Nat} {s : Serial σ} {i j : Nat} {c : Call}

theorem Ledger.not_done (h : Ledger options state host calls o done) (hnoTurn : i ∉ o.turns) :
    i ∉ done := by
  intro hmem
  exact hnoTurn (by rw [h.turns_eq]; exact List.mem_append_left _ hmem)

/-- The call that has the state has had its turn. -/
theorem Ledger.holder_turn (h : Ledger options state host calls o done)
    (hholder : o.holder = some i) : i ∈ o.turns := by
  rw [h.turns_eq, hholder]
  simp

/-- The call that has the state is not done with it. -/
theorem Ledger.holder_not_done (h : Ledger options state host calls o done)
    (hholder : o.holder = some i) : i ∉ done := by
  intro hmem
  have hnodup := h.nodup
  rw [h.turns_eq, hholder, List.nodup_append, List.nodup_append] at hnodup
  exact hnodup.1.2.2 i hmem i (by simp) rfl

/-- A call in line does not have the state. -/
theorem Ledger.holder_ne (h : Ledger options state host calls o done) (hline : i ∈ o.line) :
    o.holder ≠ some i := by
  intro hholder
  exact (List.nodup_append.1 h.nodup).2.2 i (h.holder_turn hholder) i hline rfl

/-- A call keeps its place as long as nothing that it looks at changes. -/
theorem Place.congr (h : Place options o done s j c) (htask : o'.tasks[j]? = o.tasks[j]?)
    (hturns : j ∈ o'.turns → j ∈ o.turns) (hline : j ∈ o'.line ↔ j ∈ o.line)
    (hholder : o.holder = some j → o'.holder = some j ∧ o'.host.host = o.host.host) :
    Place options o' done s j c := by
  cases h with
  | fresh task noTurn noLine =>
      exact .fresh (htask.trans task) (fun hturn => noTurn (hturns hturn))
        (fun hmem => noLine (hline.1 hmem))
  | inLine task line => exact .inLine (htask.trans task) (hline.2 line)
  | due task holder host_eq =>
      obtain ⟨hnow, hhost⟩ := hholder holder
      exact .due (htask.trans task) hnow (hhost.trans host_eq)
  | underWay task holder ending =>
      obtain ⟨hnow, hhost⟩ := hholder holder
      exact .underWay (htask.trans task) hnow (by rw [hhost]; exact ending)
  | served task turn result_ne => exact .served (htask.trans task) turn result_ne
  | turnedAway task noTurn noLine =>
      exact .turnedAway (htask.trans task) (fun hturn => noTurn (hturns hturn))
        (fun hmem => noLine (hline.1 hmem))

/-- When the holder `i` has returned, the other calls keep their places, but for the next in line,
which is due. -/
theorem Place.handOver {s' : Serial σ} (h : Place options o done s j c)
    (hholder : o.holder = some i) (hne : j ≠ i) (htask : o'.tasks[j]? = o.tasks[j]?)
    (hholder' : o'.holder = o.line.head?) (hline' : o'.line = o.line.tail)
    (hturns' : o'.turns = o.turns ++ o.line.head?.toList) (hhost' : o'.host.host = s'.host) :
    Place options o' (done ++ [i]) s' j c := by
  have hnotHolder : o.holder ≠ some j := by
    rw [hholder]
    exact fun heq => hne (Option.some.inj heq).symm
  have hnoTurn : j ∉ o.turns → j ∉ o.line → j ∉ o'.turns := by
    intro hturn hline hmem
    rw [hturns', List.mem_append] at hmem
    rcases hmem with hmem | hmem
    · exact hturn hmem
    · exact hline (List.mem_of_mem_head? (Option.mem_toList.1 hmem))
  have hnoLine : j ∉ o.line → j ∉ o'.line := by
    intro hline hmem
    rw [hline'] at hmem
    exact hline (List.mem_of_mem_tail hmem)
  cases h with
  | fresh task noTurn noLine =>
      exact .fresh (htask.trans task) (hnoTurn noTurn noLine) (hnoLine noLine)
  | inLine task line =>
      cases hcalls : o.line with
      | nil => exact absurd line (by simp [hcalls])
      | cons first rest =>
          rw [hcalls] at line hholder' hline'
          rcases List.mem_cons.1 line with rfl | hrest
          · exact .due (htask.trans task) hholder' hhost'
          · exact .inLine (htask.trans task) (by rw [hline']; exact hrest)
  | due task holder host_eq => exact absurd holder hnotHolder
  | underWay task holder ending => exact absurd holder hnotHolder
  | served task turn result_ne =>
      exact .served (htask.trans task) (List.mem_append_left _ turn) result_ne
  | turnedAway task noTurn noLine =>
      exact .turnedAway (htask.trans task) (hnoTurn noTurn noLine) (hnoLine noLine)

/-- What has become of one call can be noted if it has not returned yet and gets a place. -/
theorem serves_setTask (hledger : Ledger options state host calls o done)
    (hothers : ∀ j c, j ≠ i → calls[j]? = some c →
      Place options o done (served options state host calls done) j c)
    (hnotDone : i ∉ done) {task : Task (Paced σ)}
    (hplace : ∀ c, calls[i]? = some c →
      Place options (o.setTask i task) done (served options state host calls done) i c) :
    Serves options state host calls (o.setTask i task) done := by
  refine ⟨⟨hledger.options_eq, ?_, hledger.turns_eq, hledger.nodup, hledger.known,
    hledger.state_eq, hledger.host_eq, ?_⟩, ?_⟩
  · exact List.length_set.trans hledger.length_eq
  · rw [← hledger.results_eq]
    refine results_of_tasks fun j hj => tasks_set_of_ne ?_ _
    rintro rfl
    exact hnotDone hj
  · intro j c hc
    by_cases hj : j = i
    · subst hj
      exact hplace c hc
    · exact (hothers j c hj hc).congr (tasks_set_of_ne hj _) id Iff.rfl fun hheld => ⟨hheld, rfl⟩

/-! ### The call that has the state -/

/-- Taking in how far the holder of the state came keeps the invariant. At its end its results
are those of carrying it out behind the calls before it, and the next in line is due. -/
theorem serves_record (hledger : Ledger options state host calls o done)
    (hothers : ∀ j c, j ≠ i → calls[j]? = some c →
      Place options o done (served options state host calls done) j c)
    (hholder : o.holder = some i) (hc : calls[i]? = some c)
    {r : Dialogue.Outcome (Paced σ) (Dialogue.Progress (SessionState × Except SessionError Answer))}
    (hr : r.value.ending r.host.host =
      (c.body options (served options state host calls done).state).finish
        (served options state host calls done).host) :
    ∃ done', Serves options state host calls (o.record i c.isOverride r) done' := by
  have hi : i < o.tasks.length := by
    rw [hledger.length_eq]
    exact (List.getElem?_eq_some_iff.1 hc).1
  have hturns : o.turns = done ++ [i] := by
    rw [hledger.turns_eq, hholder]
    rfl
  have hnotDone := hledger.holder_not_done hholder
  rcases r with ⟨value, after, events⟩
  cases value with
  | waiting polls rest =>
      have hledger' : Ledger options state host calls
          { o with host := after, events := o.events ++ events } done :=
        ⟨hledger.options_eq, hledger.length_eq, hledger.turns_eq, hledger.nodup, hledger.known,
          hledger.state_eq, fun hfree => absurd (hholder.symm.trans hfree) (by simp),
          hledger.results_eq⟩
      refine ⟨done, serves_setTask hledger' ?_ hnotDone ?_⟩
      · intro j c' hj hc'
        refine (hothers j c' hj hc').congr rfl id Iff.rfl fun hheld => ?_
        exact absurd (Option.some.inj (hholder.symm.trans hheld)).symm hj
      · intro c' hc'
        obtain rfl := Option.some.inj (hc.symm.trans hc')
        exact .underWay (tasks_set_self hi _) hholder hr
  | finished ending =>
      rcases ending with ⟨state', result⟩
      have hserved : served options state host calls (done ++ [i]) =
          ⟨state', after.host, (served options state host calls done).results ++ [result]⟩ := by
        rw [served_concat hc]
        exact Serial.next_of_ending hr
      have hne : result ≠ .error .busy := by
        have hbody := Call.result_ne_busy options
          (served options state host calls done).state c
          (served options state host calls done).host
        rwa [← hr] at hbody
      have hline : o.line = o.line.head?.toList ++ o.line.tail := by
        cases o.line <;> rfl
      refine ⟨done ++ [i], ⟨⟨hledger.options_eq, ?_, ?_, ?_, ?_, ?_, ?_, ?_⟩, ?_⟩⟩
      · exact List.length_set.trans hledger.length_eq
      · change o.turns ++ _ = _
        rw [hturns]
        rfl
      · change ((o.turns ++ o.line.head?.toList) ++ o.line.tail).Nodup
        rw [List.append_assoc, ← hline]
        exact hledger.nodup
      · change ∀ j ∈ (o.turns ++ o.line.head?.toList) ++ o.line.tail, j < calls.length
        rw [List.append_assoc, ← hline]
        exact hledger.known
      · rw [hserved]
        rfl
      · intro _
        rw [hserved]
        rfl
      · rw [hserved, List.map_append, List.map_append, ← hledger.results_eq]
        congr 1
        · refine results_of_tasks fun j hj => tasks_set_of_ne ?_ _
          rintro rfl
          exact hnotDone hj
        · have htask : (o.record i c.isOverride
              ⟨.finished (state', result), after, events⟩).tasks[i]? = some (.finished result) :=
            tasks_set_self hi _
          simp [result?, htask]
      · intro j c' hc'
        by_cases hj : j = i
        · subst hj
          exact .served (tasks_set_self hi _) (List.mem_append_right done (by simp)) hne
        · rw [hserved]
          exact (hothers j c' hj hc').handOver hholder hj (tasks_set_of_ne hj _) rfl rfl rfl rfl

/-- A call that has the state goes on as it would in a serial run of the calls served so far. -/
theorem serves_enter (hledger : Ledger options state host calls o done)
    (hothers : ∀ j c, j ≠ i → calls[j]? = some c →
      Place options o done (served options state host calls done) j c)
    (hholder : o.holder = some i) (hc : calls[i]? = some c)
    (hhost : o.host.host = (served options state host calls done).host) :
    ∃ done', Serves options state host calls (o.enter i c) done' := by
  refine serves_record hledger hothers hholder hc ?_
  rw [Dialogue.ending_advance, hhost, hledger.options_eq, hledger.state_eq]

/-! ### Calls that ask for the state -/

/-- A call that is not in line asks for the state: it gets it, or the last place in line. -/
theorem serves_acquire (h : Serves options state host calls o done) (hc : calls[i]? = some c)
    (hnoTurn : i ∉ o.turns) (hnoLine : i ∉ o.line) :
    ∃ done', Serves options state host calls (o.acquire i c) done' := by
  have hi : i < calls.length := (List.getElem?_eq_some_iff.1 hc).1
  have hnodup := h.nodup
  rw [acquire]
  cases hholder : o.holder with
  | none =>
      have hturns : o.turns = done := by rw [h.turns_eq, hholder]; simp
      have hledger : Ledger options state host calls
          { o with holder := some i, turns := o.turns ++ [i] } done := by
        refine ⟨h.options_eq, h.length_eq, ?_, ?_, ?_, h.state_eq, ?_, h.results_eq⟩
        · rw [hturns]
          rfl
        · rw [List.append_assoc]
          refine List.nodup_middle.2 (List.nodup_cons.2 ⟨?_, hnodup⟩)
          rw [List.mem_append, not_or]
          exact ⟨hnoTurn, hnoLine⟩
        · intro j hj
          rw [List.append_assoc, List.mem_append, List.mem_append, List.mem_singleton] at hj
          rcases hj with hj | rfl | hj
          · exact h.known j (List.mem_append_left _ hj)
          · exact hi
          · exact h.known j (List.mem_append_right _ hj)
        · intro hfree
          exact absurd hfree (by simp)
      refine serves_enter hledger ?_ rfl hc (h.host_eq hholder)
      intro j c' hj hc'
      refine (h.place j c' hc').congr rfl (fun hmem => ?_) Iff.rfl fun hheld => ?_
      · rcases List.mem_append.1 hmem with hmem | hmem
        · exact hmem
        · exact absurd (List.mem_singleton.1 hmem) hj
      · exact absurd (hholder.symm.trans hheld) (by simp)
  | some k =>
      have hledger : Ledger options state host calls { o with line := o.line ++ [i] } done := by
        refine ⟨h.options_eq, h.length_eq, h.turns_eq, ?_, ?_, h.state_eq, h.host_eq,
          h.results_eq⟩
        · rw [← List.append_assoc, ← List.concat_eq_append, List.nodup_concat]
          refine ⟨?_, hnodup⟩
          rw [List.mem_append, not_or]
          exact ⟨hnoTurn, hnoLine⟩
        · intro j hj
          rw [← List.append_assoc, List.mem_append, List.mem_singleton] at hj
          rcases hj with hj | rfl
          · exact h.known j hj
          · exact hi
      refine ⟨done, serves_setTask hledger ?_ (h.not_done hnoTurn) ?_⟩
      · intro j c' hj hc'
        refine (h.place j c' hc').congr rfl id ?_ fun hheld => ⟨hheld, rfl⟩
        rw [List.mem_append, List.mem_singleton, or_iff_left hj]
      · intro c' hc'
        obtain rfl := Option.some.inj (hc.symm.trans hc')
        have hlast : i ∈ o.line ++ [i] := by simp
        exact .inLine (tasks_set_self (by rw [h.length_eq]; exact hi) _) hlast

/-- Whether an override is under way does not matter for the invariant. -/
theorem Serves.setOverriding (h : Serves options state host calls o done) (overriding : Bool) :
    Serves options state host calls { o with overriding } done :=
  ⟨⟨h.options_eq, h.length_eq, h.turns_eq, h.nodup, h.known, h.state_eq, h.host_eq, h.results_eq⟩,
    fun j c hc => (h.place j c hc).congr rfl id Iff.rfl fun hheld => ⟨hheld, rfl⟩⟩

/-- A call that is turned away leaves everything to the others. -/
theorem serves_turnAway (h : Serves options state host calls o done) (hi : i < calls.length)
    (hnoTurn : i ∉ o.turns) (hnoLine : i ∉ o.line) (events : List Event) :
    Serves options state host calls
      { o.setTask i (.finished (.error .busy)) with events } done := by
  have hledger : Ledger options state host calls { o with events } done :=
    ⟨h.options_eq, h.length_eq, h.turns_eq, h.nodup, h.known, h.state_eq, h.host_eq, h.results_eq⟩
  refine serves_setTask hledger ?_ (h.not_done hnoTurn) ?_
  · intro j c _ hc
    exact (h.place j c hc).congr rfl id Iff.rfl fun hheld => ⟨hheld, rfl⟩
  · intro c _
    exact .turnedAway (tasks_set_self (by rw [h.length_eq]; exact hi) _) hnoTurn hnoLine

/-! ### Polls -/

/-- Polling one call keeps the invariant. -/
theorem serves_poll (h : Serves options state host calls o done) (i : Nat) :
    ∃ done', Serves options state host calls (o.poll i) done' := by
  rw [poll]
  cases hc : calls[i]? with
  | none =>
      have hnone : o.tasks[i]? = none := by
        rw [List.getElem?_eq_none_iff] at hc ⊢
        rw [h.length_eq]
        exact hc
      rw [hnone]
      exact ⟨done, h⟩
  | some c =>
      have hi : i < calls.length := (List.getElem?_eq_some_iff.1 hc).1
      have hothers : ∀ j c, j ≠ i → calls[j]? = some c →
          Place options o done (served options state host calls done) j c :=
        fun j c _ hc => h.place j c hc
      cases h.place i c hc with
      | fresh task noTurn noLine =>
          rw [task]
          simp only [first]
          split
          · split
            · exact ⟨done, serves_turnAway h hi noTurn noLine _⟩
            · exact serves_acquire (h.setOverriding true) hc noTurn noLine
          · exact serves_acquire h hc noTurn noLine
      | inLine task line =>
          have hnotHolder : o.holder ≠ some i := by
            intro hheld
            have hmem : i ∈ o.turns := h.holder_turn hheld
            exact (List.nodup_append.1 h.nodup).2.2 i hmem i line rfl
          rw [task]
          simp only [if_neg hnotHolder]
          exact ⟨done, h⟩
      | due task holder host_eq =>
          rw [task]
          simp only [if_pos holder]
          exact serves_enter h.toLedger hothers holder hc host_eq
      | @underWay polls rest task holder ending =>
          rw [task]
          cases polls with
          | zero =>
              refine serves_record h.toLedger hothers holder hc ?_
              rw [Dialogue.ending_resume]
              exact ending
          | succ n =>
              refine ⟨done, serves_setTask h.toLedger hothers (h.holder_not_done holder) ?_⟩
              intro c' hc'
              obtain rfl := Option.some.inj (hc.symm.trans hc')
              exact .underWay (tasks_set_self (by rw [h.length_eq]; exact hi) _) holder ending
      | served task turn result_ne =>
          rw [task]
          exact ⟨done, h⟩
      | turnedAway task noTurn noLine =>
          rw [task]
          exact ⟨done, h⟩

/-- Polling calls in any order keeps the invariant. -/
theorem serves_pollAll (h : Serves options state host calls o done) (order : List Nat) :
    ∃ done', Serves options state host calls (o.pollAll order) done' := by
  induction order generalizing o done with
  | nil => exact ⟨done, h⟩
  | cons i order ih =>
      obtain ⟨done', h'⟩ := serves_poll h i
      exact ih h'

/-- The overlap of calls on a host that takes its time. -/
def overlapping (options : SessionOptions) (state : SessionState) (host : σ) (delays : List Nat)
    (calls : List Call) : Overlap (Paced σ) :=
  begin options ⟨host, delays⟩ state (calls.map fun c _ => c)

/-- Before the first poll no call is served. -/
theorem serves_overlapping (options : SessionOptions) (state : SessionState) (host : σ)
    (delays : List Nat) (calls : List Call) :
    Serves options state host calls (overlapping options state host delays calls) [] := by
  refine ⟨⟨rfl, ?_, rfl, List.nodup_nil, ?_, rfl, fun _ => rfl, rfl⟩, ?_⟩
  · simp [overlapping, begin]
  · intro i hi
    exact absurd hi (by simp [overlapping, begin])
  · intro i c hc
    refine .fresh ?_ ?_ ?_
    · simp [overlapping, begin, hc]
    · simp [overlapping, begin]
    · simp [overlapping, begin]

/-! ### Calls that are turned away -/

/-- A call that got the state or stands in line is not turned away. -/
theorem Serves.result_ne_busy (h : Serves options state host calls o done)
    (hmem : i ∈ o.turns ++ o.line) : o.result? i ≠ some (.error .busy) := by
  have hc := List.getElem?_eq_getElem (h.known i hmem)
  rw [result?]
  cases h.place i _ hc with
  | fresh task noTurn noLine => simp [task]
  | inLine task line => simp [task]
  | due task holder host_eq => simp [task]
  | underWay task holder ending => simp [task]
  | served task turn result_ne => simpa [task] using result_ne
  | turnedAway task noTurn noLine =>
      rcases List.mem_append.1 hmem with hturn | hline
      · exact absurd hturn noTurn
      · exact absurd hline noLine

/-- A call that asks for the state gets it or stands in line. -/
theorem mem_acquire (o : Overlap (Paced σ)) (i : Nat) (c : Call) :
    i ∈ (o.acquire i c).turns ++ (o.acquire i c).line := by
  rw [acquire]
  cases hholder : o.holder with
  | none =>
      have hmem : i ∈ o.turns ++ [i] := by simp
      exact List.mem_append_left _ ((turns_record _ _ _ _).subset hmem)
  | some k =>
      have hmem : i ∈ o.line ++ [i] := by simp
      exact List.mem_append_right _ hmem

/-- The poll that turns a call away leaves the state and the host alone. -/
theorem poll_of_turnedAway (h : Serves options state host calls o done)
    (hbefore : o.result? i ≠ some (.error .busy))
    (hafter : (o.poll i).result? i = some (.error .busy)) :
    (o.poll i).state = o.state ∧ (o.poll i).host = o.host := by
  obtain ⟨done', h'⟩ := serves_poll h i
  have hnotMem : i ∉ (o.poll i).turns ++ (o.poll i).line :=
    fun hmem => h'.result_ne_busy hmem hafter
  cases hc : calls[i]? with
  | none =>
      have hnone : o.tasks[i]? = none := by
        rw [List.getElem?_eq_none_iff] at hc ⊢
        rw [h.length_eq]
        exact hc
      rw [poll, hnone]
      exact ⟨rfl, rfl⟩
  | some c =>
      rw [poll] at hnotMem hafter ⊢
      cases h.place i c hc with
      | fresh task noTurn noLine =>
          rw [task] at hnotMem ⊢
          simp only [first] at hnotMem ⊢
          split
          · next hoverride =>
            split
            · exact ⟨rfl, rfl⟩
            · next hfree =>
              simp only [if_pos hoverride, if_neg hfree] at hnotMem
              exact absurd (mem_acquire _ i c) hnotMem
          · next hoverride =>
            simp only [if_neg hoverride] at hnotMem
            exact absurd (mem_acquire o i c) hnotMem
      | inLine task line =>
          rw [task] at hafter
          simp only [if_neg (h.holder_ne line)] at hafter
          exact absurd hafter hbefore
      | due task holder host_eq =>
          rw [task] at hnotMem ⊢
          simp only [if_pos holder] at hnotMem
          exact absurd (List.mem_append_left _
            ((turns_record _ _ _ _).subset (h.holder_turn holder))) hnotMem
      | @underWay polls rest task holder ending =>
          rw [task] at hnotMem ⊢
          cases polls with
          | zero =>
              exact absurd (List.mem_append_left _
                ((turns_record _ _ _ _).subset (h.holder_turn holder))) hnotMem
          | succ n => exact absurd (List.mem_append_left _ (h.holder_turn holder)) hnotMem
      | served task turn result_ne =>
          rw [task] at hafter
          exact absurd hafter hbefore
      | turnedAway task noTurn noLine =>
          rw [task] at hafter
          exact absurd hafter hbefore

/-! ### Overlaps that are over -/

/-- When every call has returned, each was served or turned away. -/
theorem Serves.settled (h : Serves options state host calls o done) (hsettled : o.isSettled = true)
    (hi : i < calls.length) :
    (i ∈ done ∧ ∃ result, o.result? i = some result ∧ result ≠ .error .busy) ∨
      (i ∉ o.turns ∧ o.result? i = some (.error .busy)) := by
  obtain ⟨result, hresult⟩ := exists_result_of_settled hsettled (by rw [h.length_eq]; exact hi)
  rw [result?, hresult]
  cases h.place i _ (List.getElem?_eq_getElem hi) with
  | fresh task noTurn noLine => exact absurd (hresult.symm.trans task) (by simp)
  | inLine task line => exact absurd (hresult.symm.trans task) (by simp)
  | due task holder host_eq => exact absurd (hresult.symm.trans task) (by simp)
  | underWay task holder ending => exact absurd (hresult.symm.trans task) (by simp)
  | @served result' task turn result_ne =>
      have heq : result = result' := by simpa using hresult.symm.trans task
      exact Or.inl ⟨turn, result, rfl, by rw [heq]; exact result_ne⟩
  | turnedAway task noTurn noLine =>
      have heq : result = .error .busy := by simpa using hresult.symm.trans task
      exact Or.inr ⟨noTurn, by rw [heq]⟩

/-- When every call has returned, nobody has the state. -/
theorem Serves.holder_of_settled (h : Serves options state host calls o done)
    (hsettled : o.isSettled = true) : o.holder = none := by
  cases hholder : o.holder with
  | none => rfl
  | some i =>
      have hturn := h.holder_turn hholder
      have hknown := h.known i (List.mem_append_left _ hturn)
      rcases h.settled hsettled hknown with ⟨hdone, _⟩ | ⟨hno, _⟩
      · exact absurd hdone (h.holder_not_done hholder)
      · exact absurd hturn hno

/-- Calls that overlap, polled in any order and waiting for any time at their host calls until all
have returned, leave the state, the host and the answers of the calls that got the state, one
after another in the order in which they got it. The others are those that were turned away, and
being turned away changes neither the state nor the host. -/
theorem pollAll_serializable (options : SessionOptions) (state : SessionState) (host : σ)
    (delays : List Nat) (calls : List Call) (order : List Nat)
    (hsettled : ((overlapping options state host delays calls).pollAll order).isSettled = true) :
    let o := (overlapping options state host delays calls).pollAll order
    let s := Serial.run options state host (callsAt calls o.turns)
    (o.turns.Nodup ∧ ∀ i < calls.length, i ∈ o.turns ↔ o.result? i ≠ some (.error .busy)) ∧
      (o.state = s.state ∧ o.host.host = s.host ∧ o.turns.map o.result? = s.results.map some) ∧
      ∀ past i,
        let before := (overlapping options state host delays calls).pollAll past
        before.result? i ≠ some (.error .busy) →
          (before.poll i).result? i = some (.error .busy) →
          (before.poll i).state = before.state ∧ (before.poll i).host = before.host := by
  intro o s
  have hbegin := serves_overlapping options state host delays calls
  obtain ⟨done, h⟩ := serves_pollAll hbegin order
  have hholder := h.holder_of_settled hsettled
  have hdone : o.turns = done := by
    rw [h.turns_eq, hholder]
    simp
  have hserved : s = served options state host calls done := by rw [← hdone]; rfl
  refine ⟨⟨(List.nodup_append.1 h.nodup).1, ?_⟩, ⟨?_, ?_, ?_⟩, ?_⟩
  · intro i hi
    constructor
    · intro hturn
      exact h.result_ne_busy (List.mem_append_left _ hturn)
    · intro hne
      rcases h.settled hsettled hi with ⟨hmem, _⟩ | ⟨_, hbusy⟩
      · rw [hdone]
        exact hmem
      · exact absurd hbusy hne
  · rw [hserved]
    exact h.state_eq
  · rw [hserved]
    exact h.host_eq hholder
  · rw [hserved, hdone]
    exact h.results_eq
  · intro past i before hbefore hafter
    obtain ⟨done', h'⟩ := serves_pollAll hbegin past
    exact poll_of_turnedAway h' hbefore hafter

/-- A session that was opened before somebody else edited a line of its host. -/
def overtaken : SessionState × MemoryHost :=
  (Session.opened {} .limited ["// @env-template", "A=1", "B=2"],
    (MemoryHost.ofLines ["// @env-template", "A=1", "B=2"]).edit 1 "A=9")

def crossingCalls : List Call :=
  [.reload, .override (.setValue "B" "3"), .override (.setValue "B" "4")]

/-- The reload waits for the host, the first override stands in line behind it, and the second one
is turned away. -/
def crossing : Overlap (Paced MemoryHost) :=
  (overlapping {} overtaken.1 overtaken.2 [1] crossingCalls).pollAll [0, 1, 2, 0, 1]

/-- The crossing calls leave what the reload and the first override leave one after the other: the
reload takes over the edited line, and the patch of the override lands beside it. -/
theorem crossing_serializable :
    crossing.isSettled = true ∧ crossing.turns = [0, 1] ∧
      crossing.result? 2 = some (.error .busy) ∧
      crossing.state.effective = .ofList [("A", "9"), ("B", "3")] ∧
      crossing.host.host.saved = ["// @env-template", "A=9", "B=3"] ∧
      let s := Serial.run {} overtaken.1 overtaken.2 [.reload, .override (.setValue "B" "3")]
      crossing.state = s.state ∧ crossing.host.host = s.host ∧
        [0, 1].map crossing.result? = s.results.map some := by
  have hcourse : crossing.isSettled = true ∧ crossing.turns = [0, 1] ∧
      crossing.result? 2 = some (.error .busy) ∧
      crossing.state.effective = .ofList [("A", "9"), ("B", "3")] ∧
      crossing.host.host.saved = ["// @env-template", "A=9", "B=3"] := by decide +kernel
  obtain ⟨hsettled, hturns, hbusy, heffective, hsaved⟩ := hcourse
  obtain ⟨_, ⟨hstate, hhost, hresults⟩, _⟩ :=
    pollAll_serializable {} overtaken.1 overtaken.2 [1] crossingCalls [0, 1, 2, 0, 1] hsettled
  have hcrossing : (overlapping {} overtaken.1 overtaken.2 [1] crossingCalls).pollAll
      [0, 1, 2, 0, 1] = crossing := rfl
  have hcalls : callsAt crossingCalls [0, 1] = [.reload, .override (.setValue "B" "3")] := rfl
  rw [hcrossing, hturns, hcalls] at hstate hhost hresults
  exact ⟨hsettled, hturns, hbusy, heffective, hsaved, hstate, hhost, hresults⟩

end Overlap

end AnnotatedEnv
