/-
Module: AnnotatedEnv.Proofs.Pace
Purpose: Hosts whose calls take any time, and that waiting changes nothing of what a dialogue does.
Main exports: Paced, Dialogue.Asks, Dialogue.finish, Dialogue.Progress.ending,
  Dialogue.ending_advance, Dialogue.ending_resume
-/
import AnnotatedEnv.Session.Dialogue

namespace AnnotatedEnv

/-! ### Hosts with delays -/

/-- A host together with the times that its next calls take. -/
structure Paced (σ : Type) where
  host : σ
  /-- How often the callers of the next calls have to come back, the next call in front. -/
  delays : List Nat

namespace Paced

variable {σ α : Type}

/-- A reply of the host, the delays left as they are. -/
def reply (delays : List Nat) (r : Reply σ α) : Reply (Paced σ) α :=
  { result := r.result, host := ⟨r.host, delays⟩, events := r.events }

def begun (p : Paced σ) : Paced σ := { p with delays := p.delays.tail }

/-- Only the beginning of a call looks at the delays. -/
instance [Host σ] : WaitingHost (Paced σ) where
  read p := reply p.delays (Host.read p.host)
  apply patch p := reply p.delays (Host.apply patch p.host)
  save p := reply p.delays (Host.save p.host)
  enter _ p := (p.delays.headD 0, { p with delays := p.delays.tail })

end Paced

namespace Dialogue

variable {σ α β : Type} [Host σ]

/-! ### Waiting or not -/

/-- A dialogue begins with a host call. -/
inductive Asks : Dialogue α → Prop where
  | read (next : Except HostError (List String) → Dialogue α) : Asks (read next)
  | apply (patch : Patch) (next : Except HostError Unit → Dialogue α) : Asks (apply patch next)
  | save (next : Except HostError Unit → Dialogue α) : Asks (save next)

/-- A call that takes no time takes place at once. -/
theorem Asks.advance_now {d : Dialogue α} (h : d.Asks) {p : Paced σ}
    (hdelay : p.delays.headD 0 = 0) : d.advance p = d.resume p.begun := by
  rcases p with ⟨host, _ | ⟨_ | n, delays⟩⟩
  · cases h <;> rfl
  · cases h <;> rfl
  · exact absurd hdelay (by simp)

/-- A call that takes time has to wait. -/
theorem Asks.advance_later {d : Dialogue α} (h : d.Asks) {p : Paced σ} {n : Nat}
    (hdelay : p.delays.headD 0 = n + 1) : d.advance p = ⟨.waiting n d, p.begun, []⟩ := by
  rcases p with ⟨host, _ | ⟨m, delays⟩⟩
  · exact absurd hdelay (by simp)
  · obtain rfl : m = n + 1 := hdelay
    cases h <;> rfl

/-! ### Endings -/

/-- What a dialogue ends with and the host it leaves, carried out without a break. -/
def finish (d : Dialogue α) (host : σ) : α × σ := ((d.run host).value, (d.run host).host)

/-- One dialogue after the other ends as the second does on the host that the first left. -/
theorem finish_bind (d : Dialogue α) (f : α → Dialogue β) (host : σ) :
    (d.bind f).finish host = (f (d.finish host).1).finish (d.finish host).2 := by
  simp only [finish, run_bind]
  rfl

/-- What a dialogue that came some way will end with, if nobody else touches the host. -/
def Progress.ending : Progress α → σ → α × σ
  | finished a, host => (a, host)
  | waiting _ rest, host => rest.finish host

/-- Going on up to the next wait does not change how a dialogue ends. -/
theorem ending_advance (d : Dialogue α) (p : Paced σ) :
    (d.advance p).value.ending (d.advance p).host.host = d.finish p.host := by
  induction d generalizing p with
  | done a => rfl
  | log event next ih => exact ih p
  | read next ih =>
      -- The call takes no time, by default or by its delay, or it has to wait.
      rcases p with ⟨host, _ | ⟨_ | n, delays⟩⟩
      · exact ih (Host.read host).result ⟨(Host.read host).host, []⟩
      · exact ih (Host.read host).result ⟨(Host.read host).host, delays⟩
      · rfl
  | apply patch next ih =>
      rcases p with ⟨host, _ | ⟨_ | n, delays⟩⟩
      · exact ih (Host.apply patch host).result ⟨(Host.apply patch host).host, []⟩
      · exact ih (Host.apply patch host).result ⟨(Host.apply patch host).host, delays⟩
      · rfl
  | save next ih =>
      rcases p with ⟨host, _ | ⟨_ | n, delays⟩⟩
      · exact ih (Host.save host).result ⟨(Host.save host).host, []⟩
      · exact ih (Host.save host).result ⟨(Host.save host).host, delays⟩
      · rfl

/-- Going on after a wait does not change it either. -/
theorem ending_resume (d : Dialogue α) (p : Paced σ) :
    (d.resume p).value.ending (d.resume p).host.host = d.finish p.host := by
  cases d with
  | done a => exact ending_advance (.done a) p
  | log event next => exact ending_advance (.log event next) p
  | read next =>
      exact ending_advance (next (Host.read p.host).result) ⟨(Host.read p.host).host, p.delays⟩
  | apply patch next =>
      exact ending_advance (next (Host.apply patch p.host).result)
        ⟨(Host.apply patch p.host).host, p.delays⟩
  | save next =>
      exact ending_advance (next (Host.save p.host).result) ⟨(Host.save p.host).host, p.delays⟩

end Dialogue

end AnnotatedEnv
