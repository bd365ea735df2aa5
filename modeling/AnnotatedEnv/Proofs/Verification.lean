/-
Module: AnnotatedEnv.Proofs.Verification
Purpose: Verifying before an override does what a reload in front of it would do.
Main exports: SessionState.following, Session.finish_reload_ok, Session.finish_verify_ok,
  Session.overrideReloaded, Session.verification_is_reload
Verification and reloading are written apart: one goes on with the request, the other answers
diagnostics. Both read once, compare digests and take over what differs.
-/
import AnnotatedEnv.Host.Memory
import AnnotatedEnv.Proofs.Pace
import AnnotatedEnv.Proofs.Session

namespace AnnotatedEnv

/-- The state of a session that was shown some lines: content with another digest is taken over. -/
def SessionState.following (s : SessionState) (lines : List String) : SessionState :=
  if Digest.ofLines lines = s.model.document.digest then s else s.takeOver (.ofLines lines)

namespace SessionState

variable {s : SessionState} {lines : List String}

theorem following_of_eq (h : Digest.ofLines lines = s.model.document.digest) :
    s.following lines = s := if_pos h

theorem following_of_ne (h : Digest.ofLines lines ≠ s.model.document.digest) :
    s.following lines = s.takeOver (.ofLines lines) := if_neg h

/-- Its own lines tell a session nothing new. -/
theorem following_self (s : SessionState) : s.following s.model.document.lines = s :=
  following_of_eq s.model.document.digest_eq.symm

/-- Being shown lines is no change. -/
theorem lastChange_following (s : SessionState) (lines : List String) :
    (s.following lines).lastChange = s.lastChange := by
  rw [following]
  split <;> rfl

end SessionState

namespace Session

variable {σ : Type} [Host σ] {options : SessionOptions} {s v : SessionState} {host h : σ}

/-! ### Reloads and verification -/

/-- A reload answers the failure of its read and leaves the state alone. -/
theorem finish_reload_error {e : HostError} (hread : (Host.read host).result = .error e) :
    (reload s).finish host = ((s, .error (.host e)), (Host.read host).host) := by
  obtain ⟨hhost, hvalue⟩ := reload_run s host
  rw [hread] at hvalue
  exact Prod.ext hvalue hhost

/-- A reload leaves the state that follows the lines it read. -/
theorem finish_reload_ok {lines : List String} (hread : (Host.read host).result = .ok lines) :
    (reload s).finish host =
      ((s.following lines, .ok (s.following lines).held.diagnostics), (Host.read host).host) := by
  obtain ⟨hhost, hvalue⟩ := reload_run s host
  rw [hread] at hvalue
  have hrefresh := (refresh_run s (.ofLines lines) (Host.read host).host).2
  refine Prod.ext (hvalue.trans (hrefresh.trans ?_)) hhost
  by_cases hdigest : Digest.ofLines lines = s.model.document.digest
  · rw [SessionState.following_of_eq hdigest]
    exact if_pos hdigest
  · rw [SessionState.following_of_ne hdigest]
    exact if_neg hdigest

/-- Verification answers the failure of its read. -/
theorem finish_verify_error (on : options.verifyBeforeOverride = true) {e : HostError}
    (hread : (Host.read host).result = .error e) :
    (verify options s).finish host = (.error e, (Host.read host).host) := by
  rw [verify, if_pos on]
  simp only [Dialogue.finish, Dialogue.run, hread]
  rfl

/-- Verification leaves the state that follows the lines it read. -/
theorem finish_verify_ok (on : options.verifyBeforeOverride = true) {lines : List String}
    (hread : (Host.read host).result = .ok lines) :
    (verify options s).finish host = (.ok (s.following lines), (Host.read host).host) := by
  rw [verify, if_pos on]
  by_cases hdigest : Digest.ofLines lines = s.model.document.digest
  · have hsame : (Document.ofLines lines).digest = s.model.document.digest := hdigest
    rw [SessionState.following_of_eq hdigest]
    simp only [Dialogue.finish, Dialogue.run, hread, if_pos hsame]
    rfl
  · have hchanged : ¬ (Document.ofLines lines).digest = s.model.document.digest := hdigest
    rw [SessionState.following_of_ne hdigest]
    simp only [Dialogue.finish, Dialogue.run, hread, if_neg hchanged, adopt, Dialogue.run_bind,
      Dialogue.run_logAll]
    rfl

theorem finish_verify_off (off : options.verifyBeforeOverride = false) :
    (verify options s).finish host = (.ok s, host) := by
  rw [verify, if_neg (by simp [off])]
  rfl

/-- What verification leaves, told without cases: the state that follows the lines it read. -/
theorem eq_following_of_verified (on : options.verifyBeforeOverride = true)
    (hverified : Verified options s host v h) :
    ∃ lines, (Host.read host).result = .ok lines ∧ v = s.following lines ∧
      h = (Host.read host).host := by
  cases hverified with
  | trusted off => exact absurd on (by simp [off])
  | same on read digest_eq => exact ⟨_, read, (SessionState.following_of_eq digest_eq).symm, rfl⟩
  | changed on read digest_ne =>
      exact ⟨_, read, (SessionState.following_of_ne digest_ne).symm, rfl⟩

/-- Without verification nothing is read. -/
theorem eq_of_verified_off (off : options.verifyBeforeOverride = false)
    (hverified : Verified options s host v h) : v = s ∧ h = host := by
  cases hverified with
  | trusted off => exact ⟨rfl, rfl⟩
  | same on read digest_eq => exact absurd on (by simp [off])
  | changed on read digest_ne => exact absurd on (by simp [off])

/-! ### Overrides behind a reload -/

/-- Reload, and if that succeeds override without verification. -/
def overrideReloaded (options : SessionOptions) (request : Request) (s : SessionState) :
    Dialogue (SessionState × Except SessionError Applied) :=
  (reload s).bind fun
    | (s, .error e) => .done (s, .error e)
    | (s, .ok _) => override { options with verifyBeforeOverride := false } request s

/-- An override with verification ends like a reload followed by an override without: in the same
state, with the same host and the same answer. If the host cannot be read both end with its error
and leave the state alone. -/
theorem verification_is_reload (options : SessionOptions) (request : Request) (s : SessionState)
    (host : σ) :
    (override { options with verifyBeforeOverride := true } request s).finish host =
        (overrideReloaded options request s).finish host ∧
      ∀ e, (Host.read host).result = .error e →
        (override { options with verifyBeforeOverride := true } request s).finish host =
            ((s, .error (.host e)), (Host.read host).host) ∧
          (reload s).finish host = ((s, .error (.host e)), (Host.read host).host) := by
  have hunread : ∀ e, (Host.read host).result = .error e →
      (override { options with verifyBeforeOverride := true } request s).finish host =
        ((s, .error (.host e)), (Host.read host).host) := by
    intro e hread
    rw [override, Dialogue.finish_bind, finish_verify_error rfl hread]
    rfl
  refine ⟨?_, fun e hread => ⟨hunread e hread, finish_reload_error hread⟩⟩
  rw [overrideReloaded, Dialogue.finish_bind]
  cases hread : (Host.read host).result with
  | error e =>
      rw [hunread e hread, finish_reload_error hread]
      rfl
  | ok lines =>
      rw [finish_reload_ok hread, override, Dialogue.finish_bind, finish_verify_ok rfl hread]
      -- What is left on both sides is the same request on the state that follows the lines.
      simp only [override, Dialogue.finish_bind, finish_verify_off]
      rfl

/-- A session that was opened before somebody else edited the line of its key. -/
def outdated : SessionState × MemoryHost :=
  (opened {} .limited ["// @env-template", "A=1"],
    (MemoryHost.ofLines ["// @env-template", "A=1"]).edit 1 "A=2")

/-- Both ways the edit is taken over and the patch of the request lands on it. If reads fail neither
gets that far. -/
theorem outdated_verification_is_reload :
    let request : Request := .setValue "A" "3"
    let failing : MemoryHost := { outdated.2 with failing := some .read }
    let ending := (override {} request outdated.1).finish outdated.2
    ending = (overrideReloaded {} request outdated.1).finish outdated.2 ∧
      ending.1.1.lastChange = .ofList [("A", "3")] ∧
      ending.2.saved = ["// @env-template", "A=3"] ∧ ending.2.patches = 1 ∧
      (override {} request outdated.1).finish failing =
        (overrideReloaded {} request outdated.1).finish failing ∧
      (override {} request outdated.1).finish failing =
        ((outdated.1, .error (.host (MemoryHost.failure .read))), failing) := by
  intro request failing ending
  obtain ⟨hreloaded, _⟩ := verification_is_reload {} request outdated.1 outdated.2
  obtain ⟨hfails, hunread⟩ := verification_is_reload {} request outdated.1 failing
  have hlands : ending.1.1.lastChange = .ofList [("A", "3")] ∧
      ending.2.saved = ["// @env-template", "A=3"] ∧ ending.2.patches = 1 := by decide +kernel
  obtain ⟨hchange, hsaved, hpatches⟩ := hlands
  exact ⟨hreloaded, hchange, hsaved, hpatches, hfails, (hunread (MemoryHost.failure .read) rfl).1⟩

end Session

end AnnotatedEnv
