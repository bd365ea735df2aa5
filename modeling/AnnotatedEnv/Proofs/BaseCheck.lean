/-
Module: AnnotatedEnv.Proofs.BaseCheck
Purpose: When the host accepts the patch of an override.
Main exports: Session.Submits, Session.apply_patchToSend_cases, Session.BaseCheck,
  Session.Submits.baseCheck, Dialogue.Reaches, Overlap.HandsOver, Overlap.Judged,
  Overlap.base_check_exact
A patch names by a digest the document it was computed from, and a host in memory compares that
digest with the one of its buffer. As long as no two lists of shown lines share a digest, the patch
is accepted exactly if the buffer holds the lines of that document.
-/
import AnnotatedEnv.Proofs.LockStep
import AnnotatedEnv.Proofs.Verification

namespace AnnotatedEnv

/-! ### What a host in memory answers -/

namespace MemoryHost

variable {host : MemoryHost} {patch : Patch}

/-- A host that is not made to fail refuses a patch as its buffer does, and stays as it is. -/
theorem apply_of_error (hfailing : host.failing ≠ some .apply) (hkeeps : host.dropsPatches = false)
    {e : PatchError} (h : patch.applyTo (.ofLines host.buffer) = .error e) :
    Host.apply patch host = { result := .error (.patch e), host } := by
  change MemoryHost.apply patch host = _
  rw [MemoryHost.apply, if_neg hfailing, if_neg (by simp [hkeeps]), h]

/-- A host that is not made to fail takes a patch that its buffer takes. -/
theorem apply_of_ok (hfailing : host.failing ≠ some .apply) {written : Document}
    (h : patch.applyTo (.ofLines host.buffer) = .ok written) :
    (Host.apply patch host).result = .ok () := by
  change (MemoryHost.apply patch host).result = _
  rw [MemoryHost.apply, if_neg hfailing, h]
  split <;> rfl

/-- Reading never fails for a patch. -/
theorem read_ne_patch (host : MemoryHost) (e : PatchError) :
    (Host.read host).result ≠ .error (.patch e) := by
  change (MemoryHost.read host).result ≠ _
  rw [MemoryHost.read]
  split <;> simp [failure]

/-- Saving never fails for a patch. -/
theorem save_ne_patch (host : MemoryHost) (e : PatchError) :
    (Host.save host).result ≠ .error (.patch e) := by
  rcases save_cases host with ⟨message, hresult, _⟩ | ⟨hresult, _⟩
  · rw [hresult]
    simp
  · rw [hresult]
    simp

end MemoryHost

namespace Session

/-! ### Overrides that reach the host -/

/-- An override gets to handing a patch to the host: its verification leaves the state `v`, on
which the request is accepted and changes something. -/
structure Submits (options : SessionOptions) (request : Request) (s : SessionState)
    (host : MemoryHost) (v : SessionState) (edit : Edit) : Prop where
  verified : Verified options s host v host
  accepted : v.model.edit v.effective request = .ok edit
  changes : edit.isNoop = false

variable {options : SessionOptions} {request : Request} {s v : SessionState} {host h : MemoryHost}
  {edit : Edit} {shown : List String → Prop}

theorem finish_verify_of_verified (hverified : Verified options s host v host) :
    (verify options s).finish host = (.ok v, host) := by
  cases hverify : options.verifyBeforeOverride with
  | false =>
      obtain ⟨rfl, _⟩ := eq_of_verified_off hverify hverified
      exact finish_verify_off hverify
  | true =>
      obtain ⟨lines, hread, rfl, hhost⟩ := eq_following_of_verified hverify hverified
      rw [finish_verify_ok hverify hread, ← hhost]

/-- From there on an override is the write of its edit. -/
theorem Submits.finish_override (hsubmits : Submits options request s host v edit) :
    (override options request s).finish host = (writeThrough options v edit).finish host := by
  have hwrites : ¬ edit.isNoop = true := by simp [hsubmits.changes]
  rw [override, Dialogue.finish_bind, finish_verify_of_verified hsubmits.verified]
  simp only [perform, Dialogue.finish, Dialogue.run_logAll, hsubmits.accepted, if_neg hwrites]
  rfl

/-- Behind a patch that is refused nothing further is asked of the host. -/
theorem finish_writeThrough_of_apply_error {e : HostError}
    (happly : (Host.apply (patchToSend options v.model edit) host).result = .error e) :
    (writeThrough options v edit).finish host =
      ((v, .error (.host e)), (Host.apply (patchToSend options v.model edit) host).host) := by
  simp only [writeThrough, Dialogue.finish, Dialogue.run, happly]
  rfl

/-- Once the patch is accepted nothing is said against it any more. -/
theorem finish_writeThrough_ne_patch
    (happly : (Host.apply (patchToSend options v.model edit) host).result = .ok ())
    (e : PatchError) :
    ((writeThrough options v edit).finish host).1.2 ≠ .error (.host (.patch e)) := by
  simp only [writeThrough, Dialogue.finish, Dialogue.run, happly]
  generalize (Host.apply (patchToSend options v.model edit) host).host = applied
  cases hsave : (Host.save applied).result with
  | error failure =>
      have hne := MemoryHost.save_ne_patch applied e
      rw [hsave] at hne
      simpa [Dialogue.run, Dialogue.Outcome.after] using hne
  | ok _ =>
      simp only [Dialogue.run]
      cases hread : (Host.read (Host.save applied).host).result with
      | error failure =>
          have hne := MemoryHost.read_ne_patch (Host.save applied).host e
          rw [hread] at hne
          simpa [Dialogue.run, Dialogue.Outcome.after] using hne
      | ok lines =>
          simp [Dialogue.run_logAll, Dialogue.run, Dialogue.Outcome.after]

/-! ### The check -/

/-- Verification leaves a session that holds shown lines, and those of the host if it read them. -/
theorem document_of_verified (hverified : Verified options s host v h)
    (hdistinct : NoCollision shown) (hknown : shown s.model.document.lines)
    (hbuffer : shown host.buffer) :
    shown v.model.document.lines ∧
      (options.verifyBeforeOverride = true → v.model.document.lines = host.buffer) := by
  cases hverified with
  | trusted off => exact ⟨hknown, fun on => absurd on (by simp [off])⟩
  | same on read digest_eq =>
      obtain rfl := MemoryHost.lines_of_read read
      have hsame := hdistinct _ _ hbuffer hknown
        (digest_eq.trans s.model.document.digest_eq)
      exact ⟨hknown, fun _ => hsame.symm⟩
  | changed on read digest_ne =>
      obtain rfl := MemoryHost.lines_of_read read
      rw [model_takeOver_document]
      exact ⟨hbuffer, fun _ => rfl⟩

/-- The patch is accepted if the buffer holds the lines it was computed from. Otherwise it is
refused for its base, and the host stays as it is. -/
theorem apply_patchToSend_cases (haccepted : v.model.edit v.effective request = .ok edit)
    (hdistinct : NoCollision shown) (hknown : shown v.model.document.lines)
    (hbuffer : shown host.buffer) (hfailing : host.failing ≠ some .apply)
    (hkeeps : host.dropsPatches = false) :
    (host.buffer = v.model.document.lines ∧
        (Host.apply (patchToSend options v.model edit) host).result = .ok ()) ∨
      (host.buffer ≠ v.model.document.lines ∧
        Host.apply (patchToSend options v.model edit) host =
          { result := .error (.patch (.baseMismatch v.model.document.digest
              (Digest.ofLines host.buffer))), host }) := by
  have hbase := Model.base_of_edit haccepted
  have hsent := applyTo_patchToSend options haccepted hdistinct hknown hbuffer
  by_cases hsame : host.buffer = v.model.document.lines
  · refine Or.inl ⟨hsame, ?_⟩
    have hdigest : v.model.document.digest = (Document.ofLines host.buffer).digest := by
      rw [v.model.document.digest_eq, ← hsame]
      rfl
    have hsize : v.model.document.size = (Document.ofLines host.buffer).size := by
      rw [Document.size, ← hsame]
      rfl
    have happly := (Patch.applyTo_eq_ok_iff edit.patch (.ofLines host.buffer) _).2
      ⟨hbase.trans hdigest, fun i hi => hsize ▸ (Model.numbered_of_edit haccepted).2 i hi, rfl⟩
    exact MemoryHost.apply_of_ok hfailing (hsent.trans happly)
  · refine Or.inr ⟨hsame, ?_⟩
    have hne : edit.patch.base ≠ (Document.ofLines host.buffer).digest := by
      rw [hbase, v.model.document.digest_eq]
      exact fun heq => hsame (hdistinct _ _ hknown hbuffer heq).symm
    have happly := Patch.applyTo_of_base_ne hne
    rw [hbase] at happly
    exact MemoryHost.apply_of_error hfailing hkeeps (hsent.trans happly)

/-- The base check of an override that hands a patch to the host is exact. -/
structure BaseCheck (options : SessionOptions) (s v : SessionState) (host : MemoryHost)
    (edit : Edit) (ending : (SessionState × Except SessionError Applied) × MemoryHost) : Prop where
  /-- A patch is accepted only by a buffer that holds the lines it was computed from. -/
  lands : (Host.apply (patchToSend options v.model edit) host).result = .ok () →
    host.buffer = v.model.document.lines
  /-- Behind a verification every patch is accepted. -/
  accepted : options.verifyBeforeOverride = true →
    (Host.apply (patchToSend options v.model edit) host).result = .ok () ∧
      ∀ e, ending.1.2 ≠ .error (.host (.patch e))
  /-- Without one the override fails for the base exactly if the buffer holds other lines than the
  session. -/
  mismatch_iff : options.verifyBeforeOverride = false →
    ((∃ expected actual,
        ending.1.2 = .error (.host (.patch (.baseMismatch expected actual)))) ↔
      host.buffer ≠ s.model.document.lines)
  /-- It then changes neither the session nor the host. -/
  unchanged : options.verifyBeforeOverride = false → host.buffer ≠ s.model.document.lines →
    ending.1.1 = s ∧ ending.2 = host
  inRange : ∀ index size, ending.1.2 ≠ .error (.host (.patch (.lineOutOfRange index size)))

/-- Whatever an override submits is judged by the lines that the host holds. -/
theorem Submits.baseCheck (hsubmits : Submits options request s host v edit)
    (hdistinct : NoCollision shown) (hknown : shown s.model.document.lines)
    (hbuffer : shown host.buffer) (hfailing : host.failing ≠ some .apply)
    (hkeeps : host.dropsPatches = false) :
    BaseCheck options s v host edit ((override options request s).finish host) := by
  obtain ⟨hknownV, hverifiedLines⟩ :=
    document_of_verified hsubmits.verified hdistinct hknown hbuffer
  have hoff : options.verifyBeforeOverride = false → v = s :=
    fun off => (eq_of_verified_off off hsubmits.verified).1
  rw [hsubmits.finish_override]
  rcases apply_patchToSend_cases hsubmits.accepted hdistinct hknownV hbuffer hfailing hkeeps with
    ⟨hsame, happly⟩ | ⟨hother, happly⟩
  · have hne := finish_writeThrough_ne_patch happly
    refine ⟨fun _ => hsame, fun _ => ⟨happly, hne⟩, fun off => ?_, fun off hother => ?_,
      fun index size => hne _⟩
    · rw [hoff off] at hsame
      constructor
      · rintro ⟨expected, actual, hmismatch⟩
        exact absurd hmismatch (hne _)
      · exact fun hother => absurd hsame hother
    · rw [hoff off] at hsame
      exact absurd hsame hother
  · have hfinish := finish_writeThrough_of_apply_error (congrArg Reply.result happly)
    rw [happly] at hfinish
    rw [hfinish]
    refine ⟨fun hok => ?_, fun on => ?_, fun off => ?_, fun off _ => ⟨hoff off, rfl⟩, ?_⟩
    · rw [happly] at hok
      exact absurd hok (by simp)
    · exact absurd (hverifiedLines on).symm hother
    · rw [hoff off] at hother ⊢
      exact ⟨fun _ => hother, fun _ => ⟨_, _, rfl⟩⟩
    · intro index size
      simp

end Session

/-! ### Handing over -/

namespace Dialogue

variable {α β : Type} {shown : List String → Prop}
  {sends : Patch → (Except HostError Unit → Dialogue α) → Prop} {ends : α → β → Prop}
  {patch : Patch} {next : Except HostError Unit → Dialogue α} {d : Dialogue α} {d' : Dialogue β}
  {p : Paced MemoryHost}

/-- Carrying out a dialogue up to its next wait comes to handing over a patch, and nothing is
written before. `next` is how it goes on. -/
inductive Reaches (patch : Patch) (next : Except HostError Unit → Dialogue α) :
    Dialogue α → Paced MemoryHost → Prop where
  | here {p : Paced MemoryHost} (now : p.delays.headD 0 = 0) :
      Reaches patch next (apply patch next) p
  | log (event : Event) {d : Dialogue α} {p : Paced MemoryHost} (rest : Reaches patch next d p) :
      Reaches patch next (log event d) p
  | read {found : Except HostError (List String) → Dialogue α} {p : Paced MemoryHost}
      (now : p.delays.headD 0 = 0)
      (rest : Reaches patch next (found (Host.read p.begun).result) (Host.read p.begun).host) :
      Reaches patch next (read found) p

/-- What is said of the patches of a dialogue holds of the one that is handed over. -/
theorem Reaches.sent (h : Reaches patch next d p) {wrote : Bool}
    (halike : Alike shown sends ends wrote d d') (hbuffer : shown p.host.buffer) :
    sends patch next := by
  induction h generalizing wrote d' with
  | here now =>
      cases halike with
      | apply agree sent rest => exact sent
  | log event rest ih =>
      cases halike with
      | log event event' rest => exact ih rest hbuffer
  | @read found p now rest ih =>
      cases halike with
      | read quiet failed hfound =>
          have hhost : (Host.read p.begun).host.host = p.host := MemoryHost.host_read p.host
          rw [hhost] at ih
          cases hresult : (Host.read p.begun).result with
          | error e =>
              rw [hresult] at ih
              exact ih (failed e) hbuffer
          | ok lines =>
              rw [hresult] at ih
              have hlines : lines = p.host.buffer := MemoryHost.lines_of_read hresult
              exact ih (hfound lines (hlines ▸ hbuffer)) hbuffer

/-- If the host refuses the patch and the dialogue then ends, it has ended on the host as it was. -/
theorem Reaches.advance (h : Reaches patch next d p) {e : HostError} {a : α}
    (hrefused : Host.apply patch p.host = { result := .error e, host := p.host })
    (hnext : next (.error e) = .done a) :
    (d.advance p).value = .finished a ∧ (d.advance p).host.host = p.host := by
  induction h with
  | @here p now =>
      rw [(Asks.apply patch next).advance_now now]
      have happly : Host.apply patch p.begun =
          Paced.reply p.begun.delays (Host.apply patch p.host) := rfl
      simp only [Dialogue.resume, happly, hrefused, Paced.reply, hnext]
      exact ⟨rfl, rfl⟩
  | log event rest ih => exact ih hrefused
  | @read found p now rest ih =>
      have hhost : (Host.read p.begun).host.host = p.host := MemoryHost.host_read p.host
      rw [hhost] at ih
      rw [(Asks.read found).advance_now now]
      exact ih hrefused

end Dialogue

/-! ### Overlapping calls -/

namespace Overlap

variable {options : SessionOptions} {shown : List String → Prop} {o : Overlap (Paced MemoryHost)}
  {i : Nat} {patch : Patch}
  {next : Except HostError Unit → Dialogue (SessionState × Except SessionError Answer)}

/-- Polling call `i` hands a patch to the host, whatever has happened since the call began. -/
inductive HandsOver (o : Overlap (Paced MemoryHost)) (i : Nat) (patch : Patch)
    (next : Except HostError Unit → Dialogue (SessionState × Except SessionError Answer)) :
    Prop where
  | begins {c : Call} (begins : o.Begins i c)
      (reaches : Dialogue.Reaches patch next (c.body o.options o.state) o.host)
  /-- It has waited long enough for the host call with which the rest of it begins. -/
  | resumes {isOverride : Bool} {rest : Dialogue (SessionState × Except SessionError Answer)}
      (task : o.tasks[i]? = some (.waiting isOverride 0 rest)) (asks : rest.Asks)
      (reaches : Dialogue.Reaches patch next rest ⟨o.host.host, 0 :: o.host.delays⟩)

theorem LockStep.told (h : LockStep options options shown o o) {c : Call} (hbegins : o.Begins i c) :
    Session.Told shown c := by
  have hrel := h.tasks i
  cases hbegins with
  | fresh task call free alone =>
      rw [task] at hrel
      cases hrel with
      | some halike =>
          cases halike with
          | fresh told => exact call ▸ told o.host
  | due task holder =>
      rw [task] at hrel
      cases hrel with
      | some halike =>
          cases halike with
          | queued told => exact told

/-- The patch that a poll hands over was computed by the call from a document that was shown. -/
theorem LockStep.hands (h : LockStep options options shown o o) (hdistinct : NoCollision shown)
    (hbuffer : shown o.host.host.buffer) (hover : o.HandsOver i patch next) :
    Session.Hands options shown o.state patch next := by
  cases hover with
  | begins begins reaches =>
      rw [h.options_eq] at reaches
      exact reaches.sent (Session.alike_body rfl hdistinct h.known (h.told begins)) hbuffer
  | resumes task asks reaches =>
      have hrel := h.tasks i
      rw [task] at hrel
      cases hrel with
      | some halike =>
          cases halike with
          | waiting isOverride polls alike => exact reaches.sent alike hbuffer

/-- A call that ends when the host refuses its patch returns with that poll. -/
theorem HandsOver.returned (hover : o.HandsOver i patch next) {e : HostError}
    {a : SessionState × Except SessionError Answer}
    (hrefused : Host.apply patch o.host.host = { result := .error e, host := o.host.host })
    (hnext : next (.error e) = .done a) : (o.poll i).Returned i (a, o.host.host) := by
  cases hover with
  | @begins c begins reaches =>
      obtain ⟨hvalue, hhost⟩ := reaches.advance hrefused hnext
      obtain ⟨o₁, htasks, hpoll⟩ := exists_record_of_begins begins
      rw [hpoll, ← hhost]
      exact returned_record (htasks ▸ begins.lt_length) c.isOverride hvalue
  | @resumes isOverride rest task asks reaches =>
      obtain ⟨hvalue, hhost⟩ := reaches.advance hrefused hnext
      rw [asks.advance_now rfl] at hvalue hhost
      have hpoll : o.poll i = o.record i isOverride (rest.resume o.host) := by rw [poll, task]
      have hlast : (rest.resume o.host).host.host = o.host.host := hhost
      rw [hpoll, ← hlast]
      exact returned_record (List.getElem?_eq_some_iff.1 task).1 isOverride hvalue

/-- What becomes of a patch that is handed over in a poll of call `i`. -/
structure Judged (options : SessionOptions) (o : Overlap (Paced MemoryHost)) (i : Nat)
    (patch : Patch) (v : SessionState) (edit : Edit) : Prop where
  accepted : ∃ request, v.model.edit v.effective request = .ok edit
  patch_eq : patch = Session.patchToSend options v.model edit
  trusted : options.verifyBeforeOverride = false → v = o.state
  /-- The host accepts it exactly if the buffer holds the lines it was computed from. -/
  lands_iff : (Host.apply patch o.host.host).result = .ok () ↔
    o.host.host.buffer = v.model.document.lines
  /-- Otherwise the host refuses it for its base, and with that the call returns and leaves the host
  as it was. -/
  refused : o.host.host.buffer ≠ v.model.document.lines →
    let e : HostError :=
      .patch (.baseMismatch v.model.document.digest (Digest.ofLines o.host.host.buffer))
    (Host.apply patch o.host.host).result = .error e ∧
      (o.poll i).Returned i ((v, .error (.host e)), o.host.host)

/-- The patch that a call hands over at some point of a course is judged by the buffer at that
point. -/
theorem LockStep.judged (h : LockStep options options shown o o) (hdistinct : NoCollision shown)
    (hbuffer : shown o.host.host.buffer) (hover : o.HandsOver i patch next)
    (hfailing : o.host.host.failing ≠ some .apply) (hkeeps : o.host.host.dropsPatches = false) :
    ∃ v edit, Judged options o i patch v edit := by
  obtain ⟨v, edit, ⟨request, haccepted⟩, rfl, hknown, htrusted, hnext⟩ :=
    h.hands hdistinct hbuffer hover
  rcases Session.apply_patchToSend_cases haccepted hdistinct hknown hbuffer hfailing hkeeps with
    ⟨hsame, happly⟩ | ⟨hother, happly⟩
  · exact ⟨v, edit, ⟨request, haccepted⟩, rfl, htrusted, ⟨fun _ => hsame, fun _ => happly⟩,
      fun hother => absurd hsame hother⟩
  · have hrefused := congrArg Reply.result happly
    refine ⟨v, edit, ⟨request, haccepted⟩, rfl, htrusted, ⟨fun hok => ?_, fun hsame => ?_⟩,
      fun _ => ⟨hrefused, hover.returned happly (hnext _)⟩⟩
    · exact absurd (hrefused.symm.trans hok) (by simp)
    · exact absurd hsame hother

/-- Whatever was polled and whatever others did to the host before, the base check is exact where a
patch is handed to a host that keeps patches and is not made to fail there. A patch lands on no
other lines than those it was computed from, and on these it does land. An override that is alone
with the host from its verification on is never refused for its base or its range; it does return,
and every turn of it ends as its body does. -/
theorem base_check_exact (options : SessionOptions) (host : MemoryHost) (state : SessionState)
    (delays : List Nat) (calls : List Call) (past : List Happening) (i : Nat)
    (hopen : Opened.OpensAs options host state)
    (hdistinct : NoCollision (Shown (overlapping options state host delays calls) calls past)) :
    let o := (overlapping options state host delays calls).course past
    let found := o.host.host
    found.failing ≠ some .apply → found.dropsPatches = false →
      (∀ patch next, o.HandsOver i patch next → ∃ v edit, Judged options o i patch v edit) ∧
        ∀ request v edit, o.Begins i (.override request) →
          Session.Submits options request o.state found v edit →
            let ending := (Session.override options request o.state).finish found
            Session.BaseCheck options o.state v found edit ending ∧
              (∃ before result, o.Turn i before result) ∧
              ∀ before result, o.Turn i before result →
                result = ending.1.2.map .applied ∧
                  (o.pollAll (before ++ [i])).state = ending.1.1 ∧
                  (o.pollAll (before ++ [i])).host.host = ending.2 := by
  intro o found hfailing hkeeps
  have hstep : LockStep options options _ o o :=
    lockStep_course hopen rfl hdistinct (List.prefix_refl past)
  have hbuffer : Shown (overlapping options state host delays calls) calls past found.buffer :=
    .held past (List.prefix_refl past)
  have hexclusive : Exclusive o :=
    exclusive_course (exclusive_overlapping options state host delays calls) past
  refine ⟨fun patch next hover => hstep.judged hdistinct hbuffer hover hfailing hkeeps, ?_⟩
  intro request v edit hbegins hsubmits ending
  refine ⟨hsubmits.baseCheck hdistinct hstep.known hbuffer hfailing hkeeps,
    exists_turn hbegins, fun before result hturn => ?_⟩
  have hending := ending_of_override_turn hexclusive hbegins hturn
  rw [hstep.options_eq] at hending
  exact hending

/-- The options of a session that does not verify. -/
def unverified : SessionOptions := { verifyBeforeOverride := false }

def oneKey : MemoryHost := .ofLines ["// @env-template", "A=1"]

def oneKeyOpened : SessionState := Session.opened unverified.load .limited oneKey.buffer

def trusting : Overlap (Paced MemoryHost) :=
  overlapping unverified oneKeyOpened oneKey [1] [.override (.setValue "A" "2")]

/-- Somebody edits the line that the override is going to replace. -/
def editedBefore : List Happening := [.outside fun host => host.edit 1 "A=9"]

/-- The override finds the line edited since the lines were read, so its patch is refused and both
the session and the edit stay. -/
theorem trusting_refused :
    let o := trusting.course editedBefore
    ∃ before result, o.Turn 0 before result ∧
      (∃ expected actual, result = .error (.host (.patch (.baseMismatch expected actual)))) ∧
      (o.pollAll (before ++ [0])).state = o.state ∧
      (o.pollAll (before ++ [0])).host.host = o.host.host := by
  intro o
  have hopen : Opened.OpensAs unverified oneKey oneKeyOpened :=
    Opened.opensAs_opened unverified .limited ⟨rfl, rfl, rfl⟩
  have hdistinct : NoCollision (Shown trusting [.override (.setValue "A" "2")] editedBefore) :=
    noCollision_of_shownLines (by decide +kernel)
  have hparts : (o.state.model.edit o.state.effective (.setValue "A" "2")).map
        (fun e => (e.effective, e.changes, e.patch.instructions)) =
      .ok (.ofList [("A", "2")], .ofList [("A", "2")], [⟨1, "A=2"⟩]) := by decide +kernel
  obtain ⟨edit, haccepted, _, hchanges, _⟩ := Model.exists_edit hparts
  have hsubmits : Session.Submits unverified (.setValue "A" "2") o.state o.host.host o.state edit :=
    ⟨.trusted rfl, haccepted, by rw [Edit.isNoop, hchanges]; rfl⟩
  have hbegins : o.Begins 0 (.override (.setValue "A" "2")) := .fresh rfl rfl rfl fun _ => rfl
  obtain ⟨hcheck, ⟨before, result, hturn⟩, hreturns⟩ :=
    (base_check_exact unverified oneKey oneKeyOpened [1]
      [.override (.setValue "A" "2")] editedBefore 0 hopen hdistinct (by decide) rfl).2
      (.setValue "A" "2") o.state edit hbegins hsubmits
  have ho : (overlapping unverified oneKeyOpened oneKey [1]
      [.override (.setValue "A" "2")]).course editedBefore = o := rfl
  rw [ho] at hcheck hturn hreturns
  have hother : o.host.host.buffer ≠ o.state.model.document.lines := by decide +kernel
  obtain ⟨expected, actual, hmismatch⟩ := (hcheck.mismatch_iff rfl).2 hother
  obtain ⟨hstate, hhost⟩ := hcheck.unchanged rfl hother
  obtain ⟨hresult, hafter, hafterHost⟩ := hreturns before result hturn
  refine ⟨before, result, hturn, ⟨expected, actual, ?_⟩, hafter.trans hstate,
    hafterHost.trans hhost⟩
  rw [hresult, hmismatch]
  rfl

end Overlap

end AnnotatedEnv
