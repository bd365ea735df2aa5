/-
Module: AnnotatedEnv.Proofs.Accord
Purpose: What an override that succeeds leaves of the session and of the host.
Main exports: Session.Accord, Session.Succeeded, Session.Overridden.succeeded,
  Overlap.successful_override_accords
Wherever the session, the buffer and the saved copy stood before, the lines that are read behind the
save are those of the buffer, which the save has just copied. A success without changes writes
nothing.
-/
import AnnotatedEnv.Proofs.Containment
import AnnotatedEnv.Proofs.Polls

namespace AnnotatedEnv

namespace Faulty

variable {f : Faulty}

theorem lines_of_read {lines : List String} (h : (Host.read f).result = .ok lines) :
    lines = f.host.buffer :=
  MemoryHost.lines_of_read (take_ok h).1

end Faulty

namespace Session

variable {options : SessionOptions} {request : Request} {s s' v : SessionState}
  {host host' h : Faulty} {applied : Applied}

/-- The session, the buffer and the saved copy hold the same lines. -/
structure Accord (s : SessionState) (host : MemoryHost) : Prop where
  buffer_eq : host.buffer = s.model.document.lines
  saved_eq : host.saved = s.model.document.lines

/-- What an override that succeeds leaves, with the calls that it made. -/
structure Succeeded (options : SessionOptions) (host : Faulty) (s' : SessionState) (host' : Faulty)
    (applied : Applied) : Prop where
  lastChange_eq : s'.lastChange = applied.changes
  /-- Without changes the patch is empty and the host was read at most. -/
  unchanged : applied.changes.isEmpty = true →
    applied.patch.isEmpty = true ∧ host'.made = host.made ++ opening options ∧
      host'.host = host.host
  /-- With changes one patch and one save were sent, and they count. -/
  written : applied.changes.isEmpty = false →
    host'.made = host.made ++ (opening options ++ [.apply, .save, .read]) ∧
      (host.host.dropsPatches = false → host'.host.patches = host.host.patches + 1) ∧
      host'.host.saves = host.host.saves + 1 ∧ Accord s' host'.host

/-- Whatever a library remembers, a session that loads some lines holds them. -/
theorem document_of_load (library : Library) (lines : List String) (effective changes : Settings) :
    (⟨(library.load (.ofLines lines)).2, (library.load (.ofLines lines)).1, effective, changes⟩ :
      SessionState).model.document = .ofLines lines :=
  library.document_load (.ofLines lines)

/-- Every success of an override leaves the session in accord with its host, or both unwritten. -/
theorem Overridden.succeeded (hend : Overridden options request s host s' host' (.ok applied)) :
    Succeeded options host s' host' applied := by
  cases hend with
  | @unchanged v h edit verified accepted noop =>
      obtain ⟨hmade, hhost⟩ := made_of_verified verified
      have hempty : edit.changes = .empty := OrderedMap.ext_entries (List.isEmpty_iff.1 noop)
      have hpatch : edit.patch = .empty v.model.document.digest :=
        (Model.edit_eq_ok accepted).2.1 noop
      refine ⟨hempty, fun _ => ⟨?_, hmade, hhost⟩, fun hsome => ?_⟩
      · rw [hpatch]
        rfl
      · exact absurd hsome (by simp [OrderedMap.isEmpty, OrderedMap.empty])
  | @written v h h' h'' edit lines verified accepted changes apply applied save saved read =>
      have hwritten := writtenThrough_of_saved verified apply applied save saved
      have hlines : h''.host.buffer = lines := (Faulty.lines_of_read read).symm
      have hdocument := document_of_load v.library lines edit.effective edit.changes
      refine ⟨rfl, fun hnone => absurd (hnone.symm.trans changes) (by simp), fun _ => ?_⟩
      rw [Faulty.host_read]
      refine ⟨hwritten.made_read, hwritten.landed, hwritten.saves, ⟨?_, ?_⟩⟩
      · rw [hdocument]
        exact hlines
      · rw [hdocument, hwritten.saved]
        exact hlines

end Session

/-! ### Overlapping calls -/

namespace Overlap

/-- Whatever overlaps with an override that succeeds, it had a turn at whose end the session was in
accord with its host: if it changed something, one patch and one save were sent and counted since
it began, the session, the buffer and the saved copy hold the same lines, and the change is the last
one. If it changed nothing, the host was not written to, and the last change is empty. -/
theorem successful_override_accords (options : SessionOptions) (state : SessionState)
    (host : Faulty) (delays : List Nat) (calls : List Call) (order : List Nat) (i : Nat)
    (request : Request) (applied : Applied) :
    let polled := (overlapping options state host delays calls).pollAll
    calls[i]? = some (.override request) →
      (polled order).result? i = some (.ok (.applied applied)) →
      ∃ front before back, order = front ++ (before ++ [i]) ++ back ∧
        let start := polled front
        let after := start.pollAll (before ++ [i])
        start.Begins i (.override request) ∧ start.Turn i before (.ok (.applied applied)) ∧
          Session.Succeeded options start.host.host after.state after.host.host applied := by
  intro polled hcall hresult
  have hunbegun : (overlapping options state host delays calls).Unbegun i (.override request) :=
    Or.inl (by simp [overlapping, begin, hcall])
  obtain ⟨front, before, back, heq, hbegins, hturn⟩ :=
    exists_turn_of_result hunbegun hresult (by simp)
  obtain ⟨done, hserves⟩ :=
    serves_pollAll (serves_overlapping options state host delays calls) front
  have hexclusive := exclusive_pollAll
    (exclusive_overlapping options state host delays calls) front
  obtain ⟨own, hanswer, hend⟩ := overridden_of_turn hexclusive hbegins hturn
  rw [hserves.options_eq] at hend
  cases own with
  | error e => exact absurd hanswer (by simp [Except.map])
  | ok applied' =>
      obtain rfl : applied = applied' := by simpa [Except.map] using hanswer
      exact ⟨front, before, back, heq, hbegins, hturn, hend.succeeded⟩

/-- A host whose buffer, saved copy and session all differ. Somebody edits its last line right
before each save. -/
def astray : Faulty :=
  { host :=
      { buffer := ["// @env-template", "A=2", "# kept"]
        saved := ["// @env-template", "A=0"]
        onSave := some (2, "# edited") }
    faults := [] }

/-- The first override waits for its first host call, and the second one comes meanwhile. -/
def overridingAstray : Overlap (Paced Faulty) := overlapping {} drifted.1 astray [1] rivals

/-- The session, the buffer and the saved copy all differ before the override, and somebody edits a
line during it. Behind it they are in accord. -/
theorem overridingAstray_accords :
    ∃ front before back applied, [0, 1, 0] = front ++ (before ++ [0]) ++ back ∧
      (overridingAstray.pollAll front).Turn 0 before (.ok (.applied applied)) ∧
      Session.Succeeded {} (overridingAstray.pollAll front).host.host
        ((overridingAstray.pollAll front).pollAll (before ++ [0])).state
        ((overridingAstray.pollAll front).pollAll (before ++ [0])).host.host applied ∧
      applied.changes = .ofList [("A", "3")] := by
  have hresult : (overridingAstray.pollAll [0, 1, 0]).result? 0 = some (.ok (.applied
      ⟨⟨Digest.ofLines ["// @env-template", "A=2", "# kept"], [⟨1, "A=3"⟩]⟩,
        .ofList [("A", "3")]⟩)) := by decide +kernel
  obtain ⟨front, before, back, heq, _, hturn, haccords⟩ :=
    successful_override_accords {} drifted.1 astray [1] rivals [0, 1, 0] 0 (.setValue "A" "3") _
      rfl hresult
  exact ⟨front, before, back, _, heq, hturn, haccords, rfl⟩

end Overlap

end AnnotatedEnv
