/-
Module: AnnotatedEnv.Proofs.Containment
Purpose: What an override that fails leaves of the session and of the host.
Main exports: Faulty, Session.FailedAt, Session.Contained, Session.Overridden.contained,
  Overlap.failed_override_contained
The host keeps a journal of the calls it gets, and each of them may be made to fail. The last call
in the journal of a failed override is the one that failed.
-/
import AnnotatedEnv.Proofs.Memory
import AnnotatedEnv.Proofs.Turn
import AnnotatedEnv.Proofs.Verification

namespace AnnotatedEnv

/-! ### Hosts that fail -/

/-- A host in memory whose calls are written down and may be made to fail one by one. -/
structure Faulty where
  host : MemoryHost
  /-- Whether each of the next calls is made to fail, the next call in front. -/
  faults : List Bool
  /-- The calls so far. -/
  made : List HostCall := []
  deriving DecidableEq, Repr

namespace Faulty

variable {α : Type} {f : Faulty} {call : HostCall} {carryOut : MemoryHost → Reply MemoryHost α}

/-- Write a call down, and carry it out unless it is made to fail. -/
def take (f : Faulty) (call : HostCall) (carryOut : MemoryHost → Reply MemoryHost α) :
    Reply Faulty α :=
  if f.faults.headD false then
    { result := .error (MemoryHost.failure call)
      host := ⟨f.host, f.faults.tail, f.made ++ [call]⟩ }
  else
    let r := carryOut f.host
    { result := r.result, host := ⟨r.host, f.faults.tail, f.made ++ [call]⟩, events := r.events }

instance : Host Faulty where
  read f := f.take .read MemoryHost.read
  apply patch f := f.take .apply (MemoryHost.apply patch)
  save f := f.take .save MemoryHost.save

/-- Every call is noted as it is made. -/
theorem made_take : (f.take call carryOut).host.made = f.made ++ [call] := by
  rw [take]
  split <;> rfl

/-- A call that fails is one that was made to fail, or the host in memory refuses it. -/
theorem take_error {e : HostError} (h : (f.take call carryOut).result = .error e) :
    (f.take call carryOut).host.host = f.host ∨
      ((carryOut f.host).result = .error e ∧
        (f.take call carryOut).host.host = (carryOut f.host).host) := by
  rw [take] at h ⊢
  split at h
  · next hfault =>
    rw [if_pos hfault]
    exact Or.inl rfl
  · next hfault =>
    rw [if_neg hfault]
    exact Or.inr ⟨h, rfl⟩

/-- A call that succeeds took place. -/
theorem take_ok {a : α} (h : (f.take call carryOut).result = .ok a) :
    (carryOut f.host).result = .ok a ∧
      (f.take call carryOut).host.host = (carryOut f.host).host := by
  rw [take] at h ⊢
  split at h
  · exact absurd h (by simp)
  · next hfault =>
    rw [if_neg hfault]
    exact ⟨h, rfl⟩

theorem host_read (f : Faulty) : (Host.read f).host.host = f.host := by
  change (f.take .read MemoryHost.read).host.host = f.host
  rw [take]
  split
  · rfl
  · exact MemoryHost.host_read f.host

/-- A patch that is refused leaves the host as it is. -/
theorem host_of_apply_error {patch : Patch} {e : HostError}
    (h : (Host.apply patch f).result = .error e) : (Host.apply patch f).host.host = f.host := by
  rcases take_error h with hhost | ⟨hresult, hhost⟩
  · exact hhost
  · rcases MemoryHost.apply_cases patch f.host with ⟨_, _, hsame⟩ | ⟨hok, _⟩ | ⟨_, _, hok, _⟩
    · exact hhost.trans hsame
    · exact absurd (hresult.symm.trans hok) (by simp)
    · exact absurd (hresult.symm.trans hok) (by simp)

/-- An accepted patch leaves the saved copy, and unless the host drops it it is counted. -/
theorem counts_of_apply_ok {patch : Patch} (h : (Host.apply patch f).result = .ok ()) :
    (Host.apply patch f).host.host.saved = f.host.saved ∧
      (Host.apply patch f).host.host.saves = f.host.saves ∧
      (f.host.dropsPatches = false →
        (Host.apply patch f).host.host.patches = f.host.patches + 1) := by
  obtain ⟨hresult, hhost⟩ := take_ok h
  change (Host.apply patch f).host.host = (Host.apply patch f.host).host at hhost
  change (Host.apply patch f.host).result = .ok () at hresult
  rw [hhost]
  rcases MemoryHost.apply_cases patch f.host with
    ⟨_, herror, _⟩ | ⟨_, hdrops, hsame⟩ | ⟨_, _, _, hlanded⟩
  · exact absurd (hresult.symm.trans herror) (by simp)
  · rw [hsame]
    exact ⟨rfl, rfl, fun hkeeps => absurd (hkeeps.symm.trans hdrops) (by simp)⟩
  · rw [hlanded]
    exact ⟨rfl, rfl, fun _ => rfl⟩

/-- A save that fails leaves the saved copy and the count of saves. -/
theorem saved_of_save_error {e : HostError} (h : (Host.save f).result = .error e) :
    (Host.save f).host.host.saved = f.host.saved ∧
      (Host.save f).host.host.saves = f.host.saves := by
  rcases take_error h with hhost | ⟨hresult, hhost⟩
  · exact ⟨congrArg MemoryHost.saved hhost, congrArg MemoryHost.saves hhost⟩
  · rcases MemoryHost.save_cases f.host with ⟨_, _, hsaved, hsaves⟩ | ⟨hok, _⟩
    · exact ⟨(congrArg MemoryHost.saved hhost).trans hsaved,
        (congrArg MemoryHost.saves hhost).trans hsaves⟩
    · exact absurd (hresult.symm.trans hok) (by simp)

/-- A save that succeeds copies the buffer and counts. -/
theorem counts_of_save_ok (h : (Host.save f).result = .ok ()) :
    (Host.save f).host.host.saved = (Host.save f).host.host.buffer ∧
      (Host.save f).host.host.saves = f.host.saves + 1 ∧
      (Host.save f).host.host.patches = f.host.patches := by
  obtain ⟨hresult, hhost⟩ := take_ok h
  change (Host.save f).host.host = (Host.save f.host).host at hhost
  change (Host.save f.host).result = .ok () at hresult
  rw [hhost]
  rcases MemoryHost.save_cases f.host with ⟨_, herror, _⟩ | ⟨_, hsaved⟩
  · exact absurd (hresult.symm.trans herror) (by simp)
  · rw [hsaved]
    exact ⟨rfl, rfl, rfl⟩

end Faulty

/-! ### Where an override fails -/

namespace Session

variable {options : SessionOptions} {request : Request} {s s' v : SessionState}
  {host host' h h' h'' : Faulty} {e : SessionError}

/-- The host calls in front of the request. -/
def opening (options : SessionOptions) : List HostCall :=
  if options.verifyBeforeOverride then [.read] else []

/-- The places at which an override fails: the host before and after it, and the calls it made. -/
inductive FailedAt (options : SessionOptions) (before : MemoryHost) :
    MemoryHost → SessionError → List HostCall → Prop where
  /-- The request is refused, or there is no place to write it. -/
  | refused {e : SessionError} (own : ∀ failure, e ≠ .host failure) :
      FailedAt options before before e (opening options)
  /-- Verification cannot read. -/
  | firstRead {failure : HostError} (on : options.verifyBeforeOverride = true) :
      FailedAt options before before (.host failure) [.read]
  | apply {failure : HostError} :
      FailedAt options before before (.host failure) (opening options ++ [.apply])
  /-- The patch was accepted, but nothing is saved. -/
  | save {after : MemoryHost} {failure : HostError} (saved : after.saved = before.saved)
      (saves : after.saves = before.saves) :
      FailedAt options before after (.host failure) (opening options ++ [.apply, .save])
  /-- The patch was accepted, the buffer was saved, and reading it back fails. -/
  | lastRead {after : MemoryHost} {failure : HostError} (saved : after.saved = after.buffer)
      (saves : after.saves = before.saves + 1)
      (landed : before.dropsPatches = false → after.patches = before.patches + 1) :
      FailedAt options before after (.host failure) (opening options ++ [.apply, .save, .read])

/-- What a failed override leaves of a session and its host: nothing but what verification took
over, and of the host what the calls in front of the failing one did. -/
structure Contained (options : SessionOptions) (s : SessionState) (host : Faulty)
    (s' : SessionState) (host' : Faulty) (e : SessionError) : Prop where
  lastChange_eq : s'.lastChange = s.lastChange
  /-- Unless verification read other lines than the session's, the state is what it was. -/
  kept : (options.verifyBeforeOverride = true → ∀ lines, (Host.read host).result = .ok lines →
    lines = s.model.document.lines) → s' = s
  /-- If it did, the state is the one that a reload would have left. -/
  reloaded : options.verifyBeforeOverride = true → ∀ lines, (Host.read host).result = .ok lines →
    lines ≠ s.model.document.lines → s' = ((reload s).finish host).1.1
  failedAt : ∃ calls, host'.made = host.made ++ calls ∧
    FailedAt options host.host host'.host e calls

theorem made_of_verified (hverified : Verified options s host v h) :
    h.made = host.made ++ opening options ∧ h.host = host.host := by
  cases hverified with
  | trusted off => simp [opening, off]
  | same on read digest_eq =>
      rw [opening, if_pos on]
      exact ⟨Faulty.made_take, host.host_read⟩
  | changed on read digest_ne =>
      rw [opening, if_pos on]
      exact ⟨Faulty.made_take, host.host_read⟩

/-- When the patch is sent, the calls of the verification have been made and nothing else. -/
theorem made_of_applied {patch : Patch} (hverified : Verified options s host v h)
    (applied : h' = (Host.apply patch h).host) :
    h'.made = host.made ++ (opening options ++ [.apply]) := by
  rw [applied, ← List.append_assoc, ← (made_of_verified hverified).1]
  exact Faulty.made_take

/-- What an accepted patch and a save behind it leave of a host: they were made and they count, and
the saved copy is the buffer. -/
structure WrittenThrough (options : SessionOptions) (host host' : Faulty) : Prop where
  made : host'.made = host.made ++ (opening options ++ [.apply, .save])
  saved : host'.host.saved = host'.host.buffer
  saves : host'.host.saves = host.host.saves + 1
  landed : host.host.dropsPatches = false → host'.host.patches = host.host.patches + 1

/-- Behind a save that succeeds the patch is in the saved copy. -/
theorem writtenThrough_of_saved {patch : Patch} (hverified : Verified options s host v h)
    (apply : (Host.apply patch h).result = .ok ()) (applied : h' = (Host.apply patch h).host)
    (save : (Host.save h').result = .ok ()) (saved : h'' = (Host.save h').host) :
    WrittenThrough options host h'' := by
  obtain ⟨_, hhost⟩ := made_of_verified hverified
  obtain ⟨_, hsaves, hpatches⟩ := Faulty.counts_of_apply_ok apply
  obtain ⟨hcopy, hsaves', hpatches'⟩ := Faulty.counts_of_save_ok save
  rw [← applied, hhost] at hsaves hpatches
  rw [← saved] at hcopy hsaves' hpatches'
  refine ⟨?_, hcopy, hsaves'.trans (by rw [hsaves]), fun hkeeps => ?_⟩
  · have hmade : h''.made = h'.made ++ [.save] := by rw [saved]; exact Faulty.made_take
    rw [hmade, made_of_applied hverified applied]
    simp
  · rw [hpatches', hpatches hkeeps]

/-- Reading behind the save is the last call. -/
theorem WrittenThrough.made_read (h : WrittenThrough options host host') :
    (Host.read host').host.made = host.made ++ (opening options ++ [.apply, .save, .read]) := by
  have hmade : (Host.read host').host.made = host'.made ++ [.read] := Faulty.made_take
  rw [hmade, h.made]
  simp

/-- A state that verification left contains its failures. -/
theorem contained_of_verified (hverified : Verified options s host v h)
    (hfailed : ∃ calls, host'.made = host.made ++ calls ∧
      FailedAt options host.host host'.host e calls) : Contained options s host v host' e := by
  cases hverify : options.verifyBeforeOverride with
  | false =>
      obtain ⟨rfl, _⟩ := eq_of_verified_off hverify hverified
      exact ⟨rfl, fun _ => rfl, fun on => absurd on (by simp [hverify]), hfailed⟩
  | true =>
      obtain ⟨lines, hread, rfl, _⟩ := eq_following_of_verified hverify hverified
      refine ⟨SessionState.lastChange_following s lines, ?_, ?_, hfailed⟩
      · intro hsame
        rw [hsame hverify lines hread, SessionState.following_self]
      · intro _ _ _ _
        rw [finish_reload_ok hread]

/-- Every failure of an override is contained. -/
theorem Overridden.contained (hend : Overridden options request s host s' host' (.error e)) :
    Contained options s host s' host' e := by
  cases hend with
  | unverified on read =>
      refine ⟨rfl, fun _ => rfl, ?_, [.read], Faulty.made_take, ?_⟩
      · intro _ lines hread
        exact absurd (read.symm.trans hread) (by simp)
      · rw [host.host_read]
        exact .firstRead on
  | @refused v h error verified refused =>
      obtain ⟨hmade, hhost⟩ := made_of_verified verified
      refine contained_of_verified verified ⟨_, hmade, ?_⟩
      rw [hhost]
      refine .refused fun failure => ?_
      cases error <;> simp [SessionError.ofEdit]
  | unapplied verified accepted changes apply =>
      refine contained_of_verified verified ⟨_, made_of_applied verified rfl, ?_⟩
      rw [Faulty.host_of_apply_error apply, (made_of_verified verified).2]
      exact .apply
  | @unsaved v h h' edit failure verified accepted changes apply applied save =>
      obtain ⟨hsaved, hsaves, _⟩ := Faulty.counts_of_apply_ok apply
      obtain ⟨hsaved', hsaves'⟩ := Faulty.saved_of_save_error save
      rw [← applied, (made_of_verified verified).2] at hsaved hsaves
      refine contained_of_verified verified ⟨opening options ++ [.apply, .save], ?_, ?_⟩
      · have hlast : (Host.save h').host.made = h'.made ++ [.save] := Faulty.made_take
        rw [hlast, made_of_applied verified applied]
        simp
      · exact .save (hsaved'.trans hsaved) (hsaves'.trans hsaves)
  | unread verified accepted changes apply applied save saved read =>
      have hwritten := writtenThrough_of_saved verified apply applied save saved
      refine contained_of_verified verified ⟨_, hwritten.made_read, ?_⟩
      rw [Faulty.host_read]
      exact .lastRead hwritten.saved hwritten.saves hwritten.landed

end Session

/-! ### Overlapping calls -/

namespace Overlap

/-- An override that fails is contained, whatever overlaps with it. One that is turned away leaves
the session and the host as they are; any other leaves, from the poll with which it began to the
poll with which it returned, what verification took over and what the host calls in front of the
failing one did. -/
theorem failed_override_contained (options : SessionOptions) (state : SessionState) (host : Faulty)
    (delays : List Nat) (calls : List Call) (order : List Nat) (i : Nat) :
    let o := (overlapping options state host delays calls).pollAll order
    (o.result? i ≠ some (.error .busy) → (o.poll i).result? i = some (.error .busy) →
        (o.poll i).state = o.state ∧ (o.poll i).host = o.host) ∧
      ∀ request before e, o.Begins i (.override request) → o.Turn i before (.error e) →
        let after := o.pollAll (before ++ [i])
        Session.Contained options o.state o.host.host after.state after.host.host e := by
  intro o
  obtain ⟨done, hserves⟩ :=
    serves_pollAll (serves_overlapping options state host delays calls) order
  refine ⟨poll_of_turnedAway hserves, ?_⟩
  intro request before e hbegins hturn after
  have hexclusive := exclusive_pollAll
    (exclusive_overlapping options state host delays calls) order
  obtain ⟨hresult, hstate, hhost⟩ := ending_of_override_turn hexclusive hbegins hturn
  have hoptions : o.options = options := hserves.options_eq
  rw [hoptions] at hresult hstate hhost
  have hend := Session.overridden_run options request o.state o.host.host
  change Session.Overridden options request o.state o.host.host _ _
    ((Session.override options request o.state).finish o.host.host).1.2 at hend
  rw [hstate, hhost]
  cases hvalue : ((Session.override options request o.state).finish o.host.host).1.2 with
  | error e' =>
      rw [hvalue] at hresult hend
      obtain rfl : e = e' := Except.error.inj hresult
      exact hend.contained
  | ok applied =>
      rw [hvalue] at hresult
      exact absurd hresult (by simp [Except.map])

/-- A session that holds other lines than its host. The third call is made to fail. -/
def drifted : SessionState × Faulty :=
  (⟨.new {}, ⟨Loaded.ofDocument (.ofLines ["// @env-template", "A=1"]) {}, 0⟩,
      .ofList [("A", "1")], .empty⟩,
    ⟨.ofLines ["// @env-template", "A=2"], [false, false, true], []⟩)

def rivals : List Call := [.override (.setValue "A" "3"), .override (.setValue "A" "4")]

/-- The first override waits for its first host call, and its save fails. -/
def failingSave : Overlap (Paced Faulty) :=
  overlapping {} drifted.1 drifted.2 [1] rivals

/-- An override during whose save the host fails answers that failure. A second one, begun
meanwhile, is turned away and changes nothing. -/
theorem failingSave_contained :
    ((failingSave.pollAll [0]).poll 1).result? 1 = some (.error .busy) ∧
      ((failingSave.pollAll [0]).poll 1).state = (failingSave.pollAll [0]).state ∧
      failingSave.Turn 0 [0, 1] (.error (.host (MemoryHost.failure .save))) ∧
      Session.Contained {} drifted.1 drifted.2 (failingSave.pollAll ([0, 1] ++ [0])).state
        (failingSave.pollAll ([0, 1] ++ [0])).host.host (.host (MemoryHost.failure .save)) := by
  have hbusy : ((failingSave.pollAll [0]).poll 1).result? 1 = some (.error .busy) := by
    decide +kernel
  have hnotBusy : (failingSave.pollAll [0]).result? 1 ≠ some (.error .busy) := by decide +kernel
  have hbegins : failingSave.Begins 0 (.override (.setValue "A" "3")) :=
    .fresh rfl rfl rfl fun _ => rfl
  have hturn : failingSave.Turn 0 [0, 1] (.error (.host (MemoryHost.failure .save))) :=
    ⟨rfl, by decide +kernel, by decide +kernel⟩
  have hturnedAway := failed_override_contained {} drifted.1 drifted.2 [1] rivals [0] 1
  have hfailed : ∀ request before e, failingSave.Begins 0 (.override request) →
      failingSave.Turn 0 before (.error e) →
      Session.Contained {} drifted.1 drifted.2 (failingSave.pollAll (before ++ [0])).state
        (failingSave.pollAll (before ++ [0])).host.host e :=
    (failed_override_contained {} drifted.1 drifted.2 [1] rivals [] 0).2
  exact ⟨hbusy, (hturnedAway.1 hnotBusy hbusy).1, hturn, hfailed _ _ _ hbegins hturn⟩

end Overlap

end AnnotatedEnv
