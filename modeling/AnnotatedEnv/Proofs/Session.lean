/-
Module: AnnotatedEnv.Proofs.Session
Purpose: What calls on a session do to its state and its host, told by the points where they end.
Main exports: Session.Verified, Session.Overridden, Session.overridden_run, Session.start_run,
  Session.reload_run,
  SessionState.InStep, Session.Overridden.inStep
-/
import AnnotatedEnv.Proofs.Library
import AnnotatedEnv.Proofs.Override
import AnnotatedEnv.Proofs.WriteBack
import AnnotatedEnv.Session

namespace AnnotatedEnv

namespace Session

variable {σ : Type} [Host σ] {options : SessionOptions} {request : Request} {s : SessionState}
  {host : σ}

/-! ### Verification -/

/-- The state and the host that a verification leaves, unless it fails. -/
inductive Verified (options : SessionOptions) (s : SessionState) (host : σ) :
    SessionState → σ → Prop where
  /-- The options do not ask for it. -/
  | trusted (off : options.verifyBeforeOverride = false) : Verified options s host s host
  /-- The host holds what the session holds. -/
  | same {lines : List String} (on : options.verifyBeforeOverride = true)
      (read : (Host.read host).result = .ok lines)
      (digest_eq : Digest.ofLines lines = s.model.document.digest) :
      Verified options s host s (Host.read host).host
  /-- The host holds something else, which is taken over. -/
  | changed {lines : List String} (on : options.verifyBeforeOverride = true)
      (read : (Host.read host).result = .ok lines)
      (digest_ne : Digest.ofLines lines ≠ s.model.document.digest) :
      Verified options s host (s.takeOver (.ofLines lines)) (Host.read host).host

/-- Verification fails as the read does, or it leaves a verified state. -/
theorem verify_run (options : SessionOptions) (s : SessionState) (host : σ) :
    (∃ e, options.verifyBeforeOverride = true ∧ (Host.read host).result = .error e ∧
        ((verify options s).run host).value = .error e ∧
        ((verify options s).run host).host = (Host.read host).host) ∨
      ∃ v, ((verify options s).run host).value = .ok v ∧
        Verified options s host v ((verify options s).run host).host := by
  cases hverify : options.verifyBeforeOverride with
  | false =>
      refine Or.inr ⟨s, ?_⟩
      rw [verify, if_neg (by simp [hverify])]
      exact ⟨rfl, .trusted hverify⟩
  | true =>
      rw [verify, if_pos hverify]
      cases hread : (Host.read host).result with
      | error e =>
          refine Or.inl ⟨e, rfl, rfl, ?_⟩
          simp [Dialogue.run, hread, Dialogue.Outcome.after]
      | ok lines =>
          refine Or.inr ?_
          by_cases hdigest : Digest.ofLines lines = s.model.document.digest
          · have hsame : (Document.ofLines lines).digest = s.model.document.digest := hdigest
            refine ⟨s, ?_⟩
            simp only [Dialogue.run, hread, if_pos hsame]
            exact ⟨rfl, .same hverify hread hdigest⟩
          · have hchanged : ¬ (Document.ofLines lines).digest = s.model.document.digest := hdigest
            refine ⟨s.takeOver (.ofLines lines), ?_⟩
            simp only [Dialogue.run, hread, if_neg hchanged, adopt, Dialogue.run_bind,
              Dialogue.run_logAll]
            exact ⟨rfl, .changed hverify hread hdigest⟩

/-! ### Overrides -/

/-- What an override leaves: the state, the host and the answer. A failing host call ends it, and
the state stays as verification left it. -/
inductive Overridden (options : SessionOptions) (request : Request) (s : SessionState) (host : σ) :
    SessionState → σ → Except SessionError Applied → Prop where
  | unverified {e : HostError} (on : options.verifyBeforeOverride = true)
      (read : (Host.read host).result = .error e) :
      Overridden options request s host s (Host.read host).host (.error (.host e))
  | refused {v : SessionState} {h : σ} {e : EditError} (verified : Verified options s host v h)
      (refused : v.model.edit v.effective request = .error e) :
      Overridden options request s host v h (.error (.ofEdit e))
  | unchanged {v : SessionState} {h : σ} {edit : Edit} (verified : Verified options s host v h)
      (accepted : v.model.edit v.effective request = .ok edit) (noop : edit.isNoop = true) :
      Overridden options request s host
        { v with effective := edit.effective, lastChange := edit.changes } h
        (.ok ⟨edit.patch, .empty⟩)
  | unapplied {v : SessionState} {h : σ} {edit : Edit} {e : HostError}
      (verified : Verified options s host v h)
      (accepted : v.model.edit v.effective request = .ok edit) (changes : edit.isNoop = false)
      (apply : (Host.apply (patchToSend options v.model edit) h).result = .error e) :
      Overridden options request s host v (Host.apply (patchToSend options v.model edit) h).host
        (.error (.host e))
  | unsaved {v : SessionState} {h h' : σ} {edit : Edit} {e : HostError}
      (verified : Verified options s host v h)
      (accepted : v.model.edit v.effective request = .ok edit) (changes : edit.isNoop = false)
      (apply : (Host.apply (patchToSend options v.model edit) h).result = .ok ())
      (applied : h' = (Host.apply (patchToSend options v.model edit) h).host)
      (save : (Host.save h').result = .error e) :
      Overridden options request s host v (Host.save h').host (.error (.host e))
  | unread {v : SessionState} {h h' h'' : σ} {edit : Edit} {e : HostError}
      (verified : Verified options s host v h)
      (accepted : v.model.edit v.effective request = .ok edit) (changes : edit.isNoop = false)
      (apply : (Host.apply (patchToSend options v.model edit) h).result = .ok ())
      (applied : h' = (Host.apply (patchToSend options v.model edit) h).host)
      (save : (Host.save h').result = .ok ()) (saved : h'' = (Host.save h').host)
      (read : (Host.read h'').result = .error e) :
      Overridden options request s host v (Host.read h'').host (.error (.host e))
  /-- The patch has landed and was saved, and `lines` were read behind it. -/
  | written {v : SessionState} {h h' h'' : σ} {edit : Edit} {lines : List String}
      (verified : Verified options s host v h)
      (accepted : v.model.edit v.effective request = .ok edit) (changes : edit.isNoop = false)
      (apply : (Host.apply (patchToSend options v.model edit) h).result = .ok ())
      (applied : h' = (Host.apply (patchToSend options v.model edit) h).host)
      (save : (Host.save h').result = .ok ()) (saved : h'' = (Host.save h').host)
      (read : (Host.read h'').result = .ok lines) :
      Overridden options request s host
        ⟨(v.library.load (.ofLines lines)).2, (v.library.load (.ofLines lines)).1, edit.effective,
          edit.changes⟩
        (Host.read h'').host (.ok ⟨patchToSend options v.model edit, edit.changes⟩)

/-- A request on a verified state ends at one of the points where an override can end. -/
theorem overridden_perform {v : SessionState} {h : σ} (hverified : Verified options s host v h) :
    Overridden options request s host ((perform options request v).run h).value.1
      ((perform options request v).run h).host ((perform options request v).run h).value.2 := by
  rw [perform, Dialogue.run_logAll]
  cases haccepted : v.model.edit v.effective request with
  | error e => exact .refused hverified haccepted
  | ok edit =>
      cases hnoop : edit.isNoop with
      | true =>
          simp only [if_pos hnoop]
          exact .unchanged hverified haccepted hnoop
      | false =>
          have hwrites : ¬ edit.isNoop = true := by simp [hnoop]
          simp only [if_neg hwrites, writeThrough, Dialogue.run]
          cases happly : (Host.apply (patchToSend options v.model edit) h).result with
          | error e => exact .unapplied hverified haccepted hnoop happly
          | ok _ =>
              simp only [Dialogue.run]
              cases hsave : (Host.save
                  (Host.apply (patchToSend options v.model edit) h).host).result with
              | error e => exact .unsaved hverified haccepted hnoop happly rfl hsave
              | ok _ =>
                  simp only [Dialogue.run]
                  cases hread : (Host.read (Host.save
                      (Host.apply (patchToSend options v.model edit) h).host).host).result with
                  | error e => exact .unread hverified haccepted hnoop happly rfl hsave rfl hread
                  | ok lines =>
                      simp only [Dialogue.run_logAll]
                      exact .written hverified haccepted hnoop happly rfl hsave rfl hread

/-- An override ends at one of these points. -/
theorem overridden_run (options : SessionOptions) (request : Request) (s : SessionState)
    (host : σ) :
    Overridden options request s host ((override options request s).run host).value.1
      ((override options request s).run host).host
      ((override options request s).run host).value.2 := by
  rw [override, Dialogue.run_bind]
  rcases verify_run options s host with ⟨e, hverify, hread, hvalue, hhost⟩ | ⟨v, hvalue, hverified⟩
  · rw [hvalue, hhost]
    exact .unverified hverify hread
  · rw [hvalue]
    exact overridden_perform hverified

/-- No override that was begun answers that another one is under way. -/
theorem Overridden.result_ne_busy {s' : SessionState} {host' : σ}
    {result : Except SessionError Applied}
    (hend : Overridden options request s host s' host' result) : result ≠ .error .busy := by
  cases hend with
  | refused verified refused =>
      next e =>
      cases e <;> simp [SessionError.ofEdit]
  | _ => simp

/-! ### Opening -/

/-- The state of a session that was opened on these lines. -/
def opened (options : LoadOptions) (cache : Cache) (lines : List String) : SessionState :=
  let loaded := (Library.new options cache).load (.ofLines lines)
  ⟨loaded.2, loaded.1, loaded.1.model.baseline, .empty⟩

/-- Opening only reads the host. -/
theorem start_run (options : SessionOptions) (cache : Cache) (host : σ) :
    ((start options cache).run host).host = (Host.read host).host ∧
      ((start options cache).run host).value =
        (Host.read host).result.map (opened options.load cache) := by
  cases hread : (Host.read host).result with
  | error e =>
      simp only [start, Dialogue.run, hread]
      exact ⟨rfl, rfl⟩
  | ok lines =>
      simp only [start, Dialogue.run, hread, Dialogue.run_logAll]
      exact ⟨rfl, rfl⟩

/-! ### Refreshing -/

/-- A refresh asks nothing of the host and takes the document over if its digest is another one. -/
theorem refresh_run (s : SessionState) (document : Document) (host : σ) :
    ((refresh s document).run host).host = host ∧
      ((refresh s document).run host).value =
        if document.digest = s.model.document.digest then (s, .ok s.held.diagnostics)
        else (s.takeOver document, .ok (s.takeOver document).held.diagnostics) := by
  by_cases hdigest : document.digest = s.model.document.digest
  · simp only [refresh, if_pos hdigest]
    exact ⟨rfl, rfl⟩
  · simp only [refresh, if_neg hdigest, adopt, Dialogue.run_bind, Dialogue.run_logAll]
    exact ⟨rfl, rfl⟩

/-- A reload leaves the host as reading it does, and refreshes if that succeeds. -/
theorem reload_run (s : SessionState) (host : σ) :
    ((reload s).run host).host = (Host.read host).host ∧
      ((reload s).run host).value =
        match (Host.read host).result with
        | .error e => (s, .error (.host e))
        | .ok lines => ((refresh s (.ofLines lines)).run (Host.read host).host).value := by
  cases hread : (Host.read host).result with
  | error e =>
      simp only [reload, Dialogue.run, hread]
      exact ⟨rfl, rfl⟩
  | ok lines =>
      simp only [reload, Dialogue.run, hread]
      exact ⟨(refresh_run s (.ofLines lines) (Host.read host).host).1, rfl⟩

end Session

/-! ### States in step -/

/-- The effective configuration is the one that the open document gives. -/
def SessionState.InStep (s : SessionState) : Prop := s.effective = s.model.baseline

namespace Session

variable {σ : Type} [Host σ] {options : SessionOptions} {request : Request} {s s' v : SessionState}
  {host host' h : σ}

/-- Verification does not bring a session out of step. -/
theorem Verified.inStep (hverified : Verified options s host v h) (hs : s.InStep) : v.InStep := by
  cases hverified with
  | trusted off => exact hs
  | same on read digest_eq => exact hs
  | changed on read digest_ne => rfl

/-- Every end of an override but the successful write keeps the state in step. -/
theorem Overridden.inStep {result : Except SessionError Applied}
    (hend : Overridden options request s host s' host' result) (hs : s.InStep)
    (hunchanged : ∀ applied, result = .ok applied → applied.changes.isEmpty = true) :
    s'.InStep := by
  cases hend with
  | unverified on read => exact hs
  | refused verified refused => exact verified.inStep hs
  | unchanged verified accepted noop =>
      have hv := verified.inStep hs
      exact (Model.effective_of_noop accepted noop).trans hv
  | unapplied verified accepted changes apply => exact verified.inStep hs
  | unsaved verified accepted changes apply applied save => exact verified.inStep hs
  | unread verified accepted changes apply applied save saved read => exact verified.inStep hs
  | written verified accepted changes apply applied save saved read =>
      have hempty := hunchanged _ rfl
      rw [Edit.isNoop] at changes
      exact absurd hempty (by simp [changes])

/-- An accepted override leaves the keys it does not change as verification left them. -/
theorem Overridden.get?_effective {applied : Applied}
    (hend : Overridden options request s host s' host' (.ok applied)) :
    ∃ v h, Verified options s host v h ∧
      ∀ key, key ∉ applied.changes.keys → s'.effective.get? key = v.effective.get? key := by
  cases hend with
  | unchanged verified accepted noop =>
      refine ⟨_, _, verified, fun key _ => ?_⟩
      rw [Model.effective_of_noop accepted noop]
  | written verified accepted changes apply applied save saved read =>
      refine ⟨_, _, verified, fun key hkey => ?_⟩
      exact Model.get?_effective_of_edit accepted hkey

end Session

end AnnotatedEnv
