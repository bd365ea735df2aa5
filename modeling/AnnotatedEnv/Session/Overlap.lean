/-
Module: AnnotatedEnv.Session.Overlap
Purpose: Calls on one session that overlap in time.
Main exports: Task, Overlap, Overlap.poll, Overlap.round, Overlap.settle
Every call goes on only when it is polled. An override is turned away if another one is under way.
All others wait in line for the state, which a call keeps to itself from its first step to its
last, also while it waits for the host.
-/
import AnnotatedEnv.Session

namespace AnnotatedEnv

/-- What has become of one of the overlapping calls. -/
inductive Task (σ : Type) where
  /-- Not polled yet. What it asks for may depend on the host at its first poll. -/
  | fresh (begin : σ → Call)
  /-- Waiting in line for the state. -/
  | queued (call : Call)
  /-- Waiting for the host, the state held. -/
  | waiting (isOverride : Bool) (polls : Nat)
      (rest : Dialogue (SessionState × Except SessionError Answer))
  | finished (result : Except SessionError Answer)

def Task.isFinished {σ : Type} : Task σ → Bool
  | finished _ => true
  | _ => false

/-- A session with the calls that overlap on it. -/
structure Overlap (σ : Type) where
  options : SessionOptions
  host : σ
  state : SessionState
  tasks : List (Task σ)
  /-- Whether an override is under way. -/
  overriding : Bool := false
  /-- The call that has the state to itself. -/
  holder : Option Nat := none
  /-- The calls in line for the state, the first in front. -/
  line : List Nat := []
  /-- The calls that have got the state so far, in order. -/
  turns : List Nat := []
  events : List Event := []

namespace Overlap

variable {σ : Type} [WaitingHost σ]

/-- The overlap of some calls before any of them is polled. -/
def begin (options : SessionOptions) (host : σ) (state : SessionState)
    (calls : List (σ → Call)) : Overlap σ :=
  { options, host, state, tasks := calls.map .fresh }

def setTask (o : Overlap σ) (i : Nat) (task : Task σ) : Overlap σ :=
  { o with tasks := o.tasks.set i task }

/-- Take in how far call `i` came. At its end the state goes to the next in line. -/
def record (o : Overlap σ) (i : Nat) (isOverride : Bool)
    (r : Dialogue.Outcome σ (Dialogue.Progress (SessionState × Except SessionError Answer))) :
    Overlap σ :=
  let o := { o with host := r.host, events := o.events ++ r.events }
  match r.value with
  | .waiting polls rest => o.setTask i (.waiting isOverride polls rest)
  | .finished (state, result) =>
    { o.setTask i (.finished result) with
      state
      overriding := if isOverride then false else o.overriding
      holder := o.line.head?
      line := o.line.tail
      turns := o.turns ++ o.line.head?.toList }

/-- Carry out call `i`, which has the state to itself. -/
def enter (o : Overlap σ) (i : Nat) (call : Call) : Overlap σ :=
  o.record i call.isOverride ((call.body o.options o.state).advance o.host)

/-- Let call `i` ask for the state. -/
def acquire (o : Overlap σ) (i : Nat) (call : Call) : Overlap σ :=
  match o.holder with
  | none => { o with holder := some i, turns := o.turns ++ [i] }.enter i call
  | some _ => { o.setTask i (.queued call) with line := o.line ++ [i] }

/-- The first poll of call `i`. -/
def first (o : Overlap σ) (i : Nat) (call : Call) : Overlap σ :=
  if call.isOverride then
    if o.overriding then
      { o.setTask i (.finished (.error .busy)) with
        events := o.events ++ [SessionEvent.rejected] }
    else { o with overriding := true }.acquire i call
  else o.acquire i call

/-- Poll call `i`: it goes on until it returns or has to wait. -/
def poll (o : Overlap σ) (i : Nat) : Overlap σ :=
  match o.tasks[i]? with
  | some (.fresh begin) => o.first i (begin o.host)
  | some (.queued call) => if o.holder = some i then o.enter i call else o
  | some (.waiting isOverride (n + 1) rest) => o.setTask i (.waiting isOverride n rest)
  | some (.waiting isOverride 0 rest) => o.record i isOverride (rest.resume o.host)
  | some (.finished _) => o
  | none => o

/-- Poll some calls one after another. -/
def pollAll (o : Overlap σ) (order : List Nat) : Overlap σ :=
  order.foldl poll o

def round (o : Overlap σ) : Overlap σ :=
  o.pollAll (List.range o.tasks.length)

def isSettled (o : Overlap σ) : Bool := o.tasks.all (·.isFinished)

/-- Poll round after round until every call has returned, at most `n` times. -/
def settleIn : (n : Nat) → Overlap σ → Overlap σ
  | 0, o => o
  | n + 1, o => if o.isSettled then o else settleIn n o.round

/-- Poll round after round until every call has returned, at most ten rounds for each call and one
more. -/
def settle (o : Overlap σ) : Overlap σ :=
  o.settleIn (10 * o.tasks.length + 1)

end Overlap

end AnnotatedEnv
