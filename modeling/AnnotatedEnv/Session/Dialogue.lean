/-
Module: AnnotatedEnv.Session.Dialogue
Purpose: Computations that talk to a host, and two ways of carrying them out.
Main exports: Dialogue, Dialogue.bind, Dialogue.run, Dialogue.run_bind, Dialogue.advance,
  Dialogue.resume
A dialogue says what is asked of the host and how to go on with each answer. `run` carries it out
without a break; `advance` stops where a host call takes time, so that others may go on meanwhile.
-/
import AnnotatedEnv.Host.Basic

namespace AnnotatedEnv

/-- A computation that ends with an `α` after asking a host some things. -/
inductive Dialogue (α : Type) where
  | done (a : α)
  | read (next : Except HostError (List String) → Dialogue α)
  | apply (patch : Patch) (next : Except HostError Unit → Dialogue α)
  | save (next : Except HostError Unit → Dialogue α)
  | log (event : Event) (next : Dialogue α)

namespace Dialogue

variable {α β σ : Type}

/-! ### Putting dialogues together -/

/-- Go on with the result of a dialogue. -/
def bind : Dialogue α → (α → Dialogue β) → Dialogue β
  | done a, f => f a
  | read next, f => read fun r => bind (next r) f
  | apply patch next, f => apply patch fun r => bind (next r) f
  | save next, f => save fun r => bind (next r) f
  | log event next, f => log event (bind next f)

def logAll (events : List Event) (next : Dialogue α) : Dialogue α :=
  events.foldr log next

/-! ### Without a break -/

/-- What carrying out a dialogue leaves behind. -/
structure Outcome (σ α : Type) where
  value : α
  host : σ
  events : List Event

def Outcome.after (events : List Event) (o : Outcome σ α) : Outcome σ α :=
  { o with events := events ++ o.events }

/-- Carry out a dialogue without a break. -/
def run [Host σ] : Dialogue α → σ → Outcome σ α
  | done a, host => ⟨a, host, []⟩
  | read next, host =>
    let r := Host.read host
    (run (next r.result) r.host).after r.events
  | apply patch next, host =>
    let r := Host.apply patch host
    (run (next r.result) r.host).after r.events
  | save next, host =>
    let r := Host.save host
    (run (next r.result) r.host).after r.events
  | log event next, host => (run next host).after [event]

theorem Outcome.after_after (es fs : List Event) (o : Outcome σ α) :
    (o.after fs).after es = o.after (es ++ fs) := by
  simp [Outcome.after]

/-- Carrying out one dialogue and then another is carrying out their composition. -/
theorem run_bind [Host σ] (d : Dialogue α) (f : α → Dialogue β) (host : σ) :
    (d.bind f).run host =
      ((f (d.run host).value).run (d.run host).host).after (d.run host).events := by
  induction d generalizing host with
  | done a => rfl
  | read next ih => simp only [bind, run, ih, Outcome.after, List.append_assoc]
  | apply patch next ih => simp only [bind, run, ih, Outcome.after, List.append_assoc]
  | save next ih => simp only [bind, run, ih, Outcome.after, List.append_assoc]
  | log event next ih => simp only [bind, run, ih, Outcome.after, List.append_assoc]

theorem run_logAll [Host σ] (events : List Event) (next : Dialogue α) (host : σ) :
    (logAll events next).run host = (next.run host).after events := by
  induction events with
  | nil => rfl
  | cons e es ih =>
    change ((logAll es next).run host).after [e] = _
    rw [ih, Outcome.after_after]
    rfl

/-! ### With breaks -/

/-- How far a dialogue came: to its end, or to a host call that takes time. -/
inductive Progress (α : Type) where
  | finished (a : α)
  /-- The caller has to come back `polls + 1` times; `rest` begins with the call. -/
  | waiting (polls : Nat) (rest : Dialogue α)

/-- Carry out a dialogue up to the next call that takes time. -/
def advance [WaitingHost σ] : Dialogue α → σ → Outcome σ (Progress α)
  | done a, host => ⟨.finished a, host, []⟩
  | log event next, host => (advance next host).after [event]
  | read next, host =>
    match WaitingHost.enter .read host with
    | (n + 1, host) => ⟨.waiting n (read next), host, []⟩
    | (0, host) =>
      let r := Host.read host
      (advance (next r.result) r.host).after r.events
  | apply patch next, host =>
    match WaitingHost.enter .apply host with
    | (n + 1, host) => ⟨.waiting n (apply patch next), host, []⟩
    | (0, host) =>
      let r := Host.apply patch host
      (advance (next r.result) r.host).after r.events
  | save next, host =>
    match WaitingHost.enter .save host with
    | (n + 1, host) => ⟨.waiting n (save next), host, []⟩
    | (0, host) =>
      let r := Host.save host
      (advance (next r.result) r.host).after r.events

/-- Go on with a dialogue whose first call has waited long enough. -/
def resume [WaitingHost σ] : Dialogue α → σ → Outcome σ (Progress α)
  | read next, host =>
    let r := Host.read host
    (advance (next r.result) r.host).after r.events
  | apply patch next, host =>
    let r := Host.apply patch host
    (advance (next r.result) r.host).after r.events
  | save next, host =>
    let r := Host.save host
    (advance (next r.result) r.host).after r.events
  | d, host => advance d host

end Dialogue

end AnnotatedEnv
