/-
Module: AnnotatedEnv.Proofs.Alike
Purpose: Dialogues that ask the same of a host in memory, and calls of two sessions that send other
  patches for the same edit.
Main exports: Dialogue.Alike, Dialogue.Alike.advance, Dialogue.Alike.resume, Session.Twins,
  Session.Hands, Session.alike_body
A session knows the lines of its document from a read or from being told, so they are among the
lines that were shown. Whatever it sends is therefore judged by the host as the full patch would be,
as long as no two lists of shown lines share a digest.
-/
import AnnotatedEnv.Proofs.Course

namespace AnnotatedEnv

/-! ### Dialogues alike -/

namespace Dialogue

variable {α β α' β' : Type} {shown : List String → Prop} {ends : α → β → Prop} {d : Dialogue α}
  {d' : Dialogue β} {wrote : Bool} {sends : Patch → (Except HostError Unit → Dialogue α) → Prop}

/-- Nothing is asked of the host any more. -/
inductive Quiet : Dialogue α → Prop where
  | done (a : α) : Quiet (done a)
  | log (event : Event) {next : Dialogue α} (rest : Quiet next) : Quiet (log event next)

/-- Two dialogues ask the same of a host in memory and end alike, as long as the lines that they
find are among the shown ones. `wrote` tells whether the host was written to: lines that are read
behind that are only known to be shown if they are what the host is left with. Of the patches of
the first one `sends` tells more, with how it goes on after the host's answer. -/
inductive Alike (shown : List String → Prop)
    (sends : Patch → (Except HostError Unit → Dialogue α) → Prop) (ends : α → β → Prop) :
    (wrote : Bool) → Dialogue α → Dialogue β → Prop where
  | done {wrote : Bool} {a : α} {b : β} (alike : ends a b) :
      Alike shown sends ends wrote (done a) (done b)
  | log {wrote : Bool} (event event' : Event) {next : Dialogue α} {next' : Dialogue β}
      (rest : Alike shown sends ends wrote next next') :
      Alike shown sends ends wrote (log event next) (log event' next')
  | read {wrote : Bool} {next : Except HostError (List String) → Dialogue α}
      {next' : Except HostError (List String) → Dialogue β}
      (quiet : wrote = true → ∀ r, Quiet (next r))
      (failed : ∀ e, Alike shown sends ends wrote (next (.error e)) (next' (.error e)))
      (found : ∀ lines, shown lines →
        Alike shown sends ends wrote (next (.ok lines)) (next' (.ok lines))) :
      Alike shown sends ends wrote (read next) (read next')
  | apply {patch patch' : Patch} {next : Except HostError Unit → Dialogue α}
      {next' : Except HostError Unit → Dialogue β}
      (agree : ∀ lines, shown lines →
        patch.applyTo (.ofLines lines) = patch'.applyTo (.ofLines lines))
      (sent : sends patch next) (rest : ∀ r, Alike shown sends ends true (next r) (next' r)) :
      Alike shown sends ends false (apply patch next) (apply patch' next')
  | save {wrote : Bool} {next : Except HostError Unit → Dialogue α}
      {next' : Except HostError Unit → Dialogue β}
      (rest : ∀ r, Alike shown sends ends true (next r) (next' r)) :
      Alike shown sends ends wrote (save next) (save next')

/-- Two dialogues came equally far and go on alike. -/
inductive Progress.Alike (shown : List String → Prop)
    (sends : Patch → (Except HostError Unit → Dialogue α) → Prop) (ends : α → β → Prop) :
    Progress α → Progress β → Prop where
  | finished {a : α} {b : β} (alike : ends a b) : Alike shown sends ends (.finished a) (.finished b)
  | waiting (polls : Nat) {wrote : Bool} {rest : Dialogue α} {rest' : Dialogue β}
      (alike : Dialogue.Alike shown sends ends wrote rest rest') :
      Alike shown sends ends (.waiting polls rest) (.waiting polls rest')

/-- The same, and the hosts are left equal. -/
structure Outcome.Alike (shown : List String → Prop)
    (sends : Patch → (Except HostError Unit → Dialogue α) → Prop) (ends : α → β → Prop)
    (r : Outcome (Paced MemoryHost) (Progress α)) (r' : Outcome (Paced MemoryHost) (Progress β)) :
    Prop where
  host_eq : r'.host = r.host
  value : Progress.Alike shown sends ends r.value r'.value

theorem Quiet.logAll (h : Quiet d) (events : List Event) : Quiet (logAll events d) := by
  induction events with
  | nil => exact h
  | cons event events ih => exact .log event ih

theorem Quiet.map (h : Quiet d) (f : α → α') : Quiet (d.bind fun a => Dialogue.done (f a)) := by
  induction h with
  | done a => exact .done (f a)
  | log event rest ih => exact .log event ih

/-- A quiet dialogue leaves the host as it is. -/
theorem Quiet.host_advance {σ : Type} [WaitingHost σ] (h : Quiet d) (host : σ) :
    (d.advance host).host = host := by
  induction h with
  | done a => rfl
  | log event rest ih => exact ih

theorem bind_logAll {γ : Type} (events : List Event) (d : Dialogue α) (f : α → Dialogue γ) :
    (logAll events d).bind f = logAll events (d.bind f) := by
  induction events with
  | nil => rfl
  | cons event events ih => exact congrArg (log event) ih

/-- What is logged on the way makes no difference, if it is equally much. -/
theorem Alike.logAll (h : Alike shown sends ends wrote d d') {events events' : List Event}
    (hlength : events.length = events'.length) :
    Alike shown sends ends wrote (logAll events d) (logAll events' d') := by
  induction events generalizing events' with
  | nil =>
      obtain rfl := List.length_eq_zero_iff.1 hlength.symm
      exact h
  | cons event events ih =>
      cases events' with
      | nil => exact absurd hlength (by simp)
      | cons event' events' => exact .log event event' (ih (by simpa using hlength))

/-- Dialogues stay alike if their ends are wrapped up alike. -/
theorem Alike.map {ends' : α' → β' → Prop} {f : α → α'} {g : β → β'}
    {sends' : Patch → (Except HostError Unit → Dialogue α') → Prop}
    (h : Alike shown sends ends wrote d d') (hends : ∀ a b, ends a b → ends' (f a) (g b))
    (hsends : ∀ patch next, sends patch next →
      sends' patch fun r => (next r).bind fun a => Dialogue.done (f a)) :
    Alike shown sends' ends' wrote (d.bind fun a => Dialogue.done (f a))
      (d'.bind fun b => Dialogue.done (g b)) := by
  induction h with
  | done alike => exact .done (hends _ _ alike)
  | log event event' rest ih => exact .log event event' ih
  | read quiet failed found ihfailed ihfound =>
      exact .read (fun hwrote r => (quiet hwrote r).map f) ihfailed ihfound
  | apply agree sent rest ih => exact .apply agree (hsends _ _ sent) ih
  | save rest ih => exact .save ih

/-- Two dialogues that ask alike come equally far if they do so from the answer on. -/
theorem Alike.advance_of_asks (h : Alike shown sends ends wrote d d') (hasks : d.Asks)
    (hasks' : d'.Asks) (p : Paced MemoryHost)
    (hresume : shown (d.resume p.begun).host.host.buffer →
      Outcome.Alike shown sends ends (d.resume p.begun) (d'.resume p.begun))
    (hend : shown (d.advance p).host.host.buffer) :
    Outcome.Alike shown sends ends (d.advance p) (d'.advance p) := by
  cases hdelay : p.delays.headD 0 with
  | zero =>
      rw [hasks.advance_now hdelay] at hend ⊢
      rw [hasks'.advance_now hdelay]
      exact hresume hend
  | succ n =>
      rw [hasks.advance_later hdelay, hasks'.advance_later hdelay]
      exact ⟨rfl, .waiting n h⟩

/-- Over a host whose lines are shown before and after, dialogues that are alike come equally far
and leave the same host. -/
theorem Alike.advance (h : Alike shown sends ends wrote d d') (p : Paced MemoryHost)
    (hbegin : wrote = false → shown p.host.buffer) (hend : shown (d.advance p).host.host.buffer) :
    Outcome.Alike shown sends ends (d.advance p) (d'.advance p) := by
  induction h generalizing p with
  | done alike => exact ⟨rfl, .finished alike⟩
  | log event event' rest ih =>
      obtain ⟨hhost, hvalue⟩ := ih p hbegin hend
      exact ⟨hhost, hvalue⟩
  | @read wrote next next' quiet failed found ihfailed ihfound =>
      refine (Alike.read quiet failed found).advance_of_asks (.read next) (.read next') p
        (fun hend => ?_) hend
      let q : Paced MemoryHost := (Host.read p.begun).host
      change shown ((next (Host.read p.begun).result).advance q).host.host.buffer at hend
      have hhost : q.host = p.host := MemoryHost.host_read p.host
      -- What is found is what the host held before, and if nothing is asked behind it also what
      -- the host holds after.
      have hbuffer : shown q.host.buffer := by
        cases hwrote : wrote with
        | false =>
            rw [hhost]
            exact hbegin hwrote
        | true =>
            rw [(quiet hwrote _).host_advance] at hend
            exact hend
      have hnext : Outcome.Alike shown sends ends ((next (Host.read p.begun).result).advance q)
          ((next' (Host.read p.begun).result).advance q) := by
        cases hresult : (Host.read p.begun).result with
        | error e =>
            rw [hresult] at hend
            exact ihfailed e q (fun _ => hbuffer) hend
        | ok lines =>
            rw [hresult] at hend
            have hlines : lines = p.host.buffer := MemoryHost.lines_of_read hresult
            rw [hhost, ← hlines] at hbuffer
            exact ihfound lines hbuffer q (fun _ => by rw [hhost, ← hlines]; exact hbuffer) hend
      exact ⟨hnext.host_eq, hnext.value⟩
  | @apply patch patch' next next' agree sent rest ih =>
      refine (Alike.apply agree sent rest).advance_of_asks (.apply patch next)
        (.apply patch' next') p (fun hend => ?_) hend
      have happly : Host.apply patch p.begun = Host.apply patch' p.begun :=
        congrArg (Paced.reply p.begun.delays)
          (MemoryHost.apply_congr (agree p.host.buffer (hbegin rfl)))
      have hnext := ih (Host.apply patch p.begun).result (Host.apply patch p.begun).host
        (fun hwrote => absurd hwrote (by simp)) hend
      refine ⟨?_, ?_⟩
      · rw [Dialogue.resume, ← happly]
        exact hnext.host_eq
      · rw [Dialogue.resume, Dialogue.resume, ← happly]
        exact hnext.value
  | @save wrote next next' rest ih =>
      have hsave : Alike shown sends ends wrote (Dialogue.save next) (Dialogue.save next') :=
        .save rest
      refine hsave.advance_of_asks (.save next) (.save next') p (fun hend => ?_) hend
      have hnext := ih (Host.save p.begun).result (Host.save p.begun).host
        (fun hwrote => absurd hwrote (by simp)) hend
      exact ⟨hnext.host_eq, hnext.value⟩

/-- The same after a wait. -/
theorem Alike.resume (h : Alike shown sends ends wrote d d') (p : Paced MemoryHost)
    (hbegin : shown p.host.buffer) (hend : shown (d.resume p).host.host.buffer) :
    Outcome.Alike shown sends ends (d.resume p) (d'.resume p) := by
  -- A call that has waited long enough takes place like one that takes no time.
  have hnow := h.advance ⟨p.host, 0 :: p.delays⟩ fun _ => hbegin
  cases h with
  | done alike => exact ⟨rfl, .finished alike⟩
  | log event event' rest => exact (Alike.log event event' rest).advance p (fun _ => hbegin) hend
  | read quiet failed found => exact hnow hend
  | apply agree sent rest => exact hnow hend
  | save rest => exact hnow hend

end Dialogue

/-! ### Sessions that send other patches -/

namespace Session

variable {shown : List String → Prop} {options options' : SessionOptions}

/-- Answers of two sessions that may send other patches for the same edit. -/
inductive Twins (options options' : SessionOptions) (shown : List String → Prop) :
    Except SessionError Answer → Except SessionError Answer → Prop where
  | error (e : SessionError) : Twins options options' shown (.error e) (.error e)
  | refreshed (diagnostics : List Diagnostic) :
      Twins options options' shown (.ok (.refreshed diagnostics)) (.ok (.refreshed diagnostics))
  /-- The edit was computed from a document that was shown. -/
  | applied {m : Model} {edit : Edit} (known : shown m.document.lines)
      (base : edit.patch.base = m.document.digest) (changes : Settings) :
      Twins options options' shown (.ok (.applied ⟨patchToSend options m edit, changes⟩))
        (.ok (.applied ⟨patchToSend options' m edit, changes⟩))

/-- Two calls leave the same state, which holds known lines, and answer as twins. -/
structure TwinEnds (options options' : SessionOptions) (shown : List String → Prop)
    (a a' : SessionState × Except SessionError Answer) : Prop where
  state_eq : a'.1 = a.1
  known : shown a.1.model.document.lines
  twins : Twins options options' shown a.2 a'.2

/-- The same of ends whose results are still to be wrapped up as answers. -/
def TwinEndsAs {γ : Type} (wrap : γ → Answer) (options options' : SessionOptions)
    (shown : List String → Prop) (a a' : SessionState × Except SessionError γ) : Prop :=
  TwinEnds options options' shown (a.1, a.2.map wrap) (a'.1, a'.2.map wrap)

/-- A call that began on the state `begun` hands a patch to the host. It was computed on `v`, and
the call ends if the host refuses it. -/
structure Handing {γ : Type} (options : SessionOptions) (shown : List String → Prop)
    (begun : SessionState) (patch : Patch)
    (next : Except HostError Unit → Dialogue (SessionState × Except SessionError γ))
    (v : SessionState) (edit : Edit) : Prop where
  accepted : ∃ request, v.model.edit v.effective request = .ok edit
  patch_eq : patch = patchToSend options v.model edit
  known : shown v.model.document.lines
  trusted : options.verifyBeforeOverride = false → v = begun
  refused : ∀ e, next (.error e) = .done (v, .error (.host e))

/-- The same for some computed edit. -/
def Hands {γ : Type} (options : SessionOptions) (shown : List String → Prop)
    (begun : SessionState) (patch : Patch)
    (next : Except HostError Unit → Dialogue (SessionState × Except SessionError γ)) : Prop :=
  ∃ v edit, Handing options shown begun patch next v edit

/-- What a call tells the session is among the shown lines. -/
def Told (shown : List String → Prop) (c : Call) : Prop :=
  ∀ lines, c = .externalChange lines → shown lines

variable {s begun : SessionState} {request : Request} {edit : Edit} {lines : List String}

/-- What is taken over becomes the document of the model. -/
theorem model_takeOver_document (s : SessionState) (document : Document) :
    (s.takeOver document).model.document = document :=
  s.library.document_load document

theorem twinEndsAs_error {γ : Type} {wrap : γ → Answer} (hknown : shown s.model.document.lines)
    (e : SessionError) :
    TwinEndsAs wrap options options' shown (s, .error e) (s, .error e) :=
  ⟨rfl, hknown, .error e⟩

theorem Hands.map {γ δ : Type} {wrap : γ → δ} {patch : Patch}
    {next : Except HostError Unit → Dialogue (SessionState × Except SessionError γ)}
    (h : Hands options shown begun patch next) :
    Hands options shown begun patch fun r => (next r).bind fun a => .done (a.1, a.2.map wrap) := by
  obtain ⟨v, edit, hhanding⟩ := h
  refine ⟨v, edit, hhanding.accepted, hhanding.patch_eq, hhanding.known, hhanding.trusted, ?_⟩
  intro e
  simp only [hhanding.refused e]
  rfl

theorem patchToSend_of_empty (options : SessionOptions) {m : Model} {base : Digest}
    (h : edit.patch = .empty base) : patchToSend options m edit = .empty base := by
  rw [patchToSend, h]
  split <;> rfl

/-- Writing an edit through is alike with options that differ in the patch that is sent. -/
theorem alike_writeThrough (haccepted : s.model.edit s.effective request = .ok edit)
    (hdistinct : NoCollision shown) (hknown : shown s.model.document.lines)
    (htrusted : options.verifyBeforeOverride = false → s = begun) :
    Dialogue.Alike shown (Hands options shown begun) (TwinEndsAs .applied options options' shown)
      false (writeThrough options s edit) (writeThrough options' s edit) := by
  have hbase := Model.base_of_edit haccepted
  have hfailed : ∀ e : HostError, Dialogue.Alike shown (Hands options shown begun)
      (TwinEndsAs .applied options options' shown) true (.done (s, .error (.host e)))
      (.done (s, .error (.host e))) :=
    fun e => .done (twinEndsAs_error hknown (.host e))
  refine .apply (fun lines hlines => ?_)
    ⟨s, edit, ⟨request, haccepted⟩, rfl, hknown, htrusted, fun _ => rfl⟩ fun applied => ?_
  · rw [applyTo_patchToSend options haccepted hdistinct hknown hlines,
      applyTo_patchToSend options' haccepted hdistinct hknown hlines]
  cases applied with
  | error e => exact hfailed e
  | ok _ =>
      refine .save fun saved => ?_
      cases saved with
      | error e => exact hfailed e
      | ok _ =>
          refine .read (fun _ found => ?_) hfailed fun lines hlines => ?_
          · cases found with
            | error e => exact .done _
            | ok lines => exact (Dialogue.Quiet.done _).logAll _
          · refine (Dialogue.Alike.done ⟨rfl, ?_, .applied hknown hbase edit.changes⟩).logAll
              (by simp)
            have hloaded : shown (s.library.load (.ofLines lines)).1.model.document.lines := by
              rw [Library.document_load]
              exact hlines
            exact hloaded

/-- So is a request on a verified state. -/
theorem alike_perform (request : Request) (hdistinct : NoCollision shown)
    (hknown : shown s.model.document.lines)
    (htrusted : options.verifyBeforeOverride = false → s = begun) :
    Dialogue.Alike shown (Hands options shown begun) (TwinEndsAs .applied options options' shown)
      false (perform options request s) (perform options' request s) := by
  refine Dialogue.Alike.logAll ?_ rfl
  cases haccepted : s.model.edit s.effective request with
  | error e => exact .done (twinEndsAs_error hknown (.ofEdit e))
  | ok edit =>
      cases hnoop : edit.isNoop with
      | true =>
          have hempty := (Model.edit_eq_ok haccepted).2.1 hnoop
          have hbase := Model.base_of_edit haccepted
          simp only [if_pos hnoop]
          refine .log _ _ (.done ⟨rfl, hknown, ?_⟩)
          have htwins : Twins options options' shown
              (.ok (.applied ⟨patchToSend options s.model edit, .empty⟩))
              (.ok (.applied ⟨patchToSend options' s.model edit, .empty⟩)) :=
            .applied hknown hbase .empty
          rw [patchToSend_of_empty options hempty, patchToSend_of_empty options' hempty,
            ← hempty] at htwins
          exact htwins
      | false =>
          have hwrites : ¬ edit.isNoop = true := by simp [hnoop]
          simp only [if_neg hwrites]
          exact alike_writeThrough haccepted hdistinct hknown htrusted

/-- Overrides are alike with options that verify alike. -/
theorem alike_override (request : Request)
    (hverify : options'.verifyBeforeOverride = options.verifyBeforeOverride)
    (hdistinct : NoCollision shown) (hknown : shown s.model.document.lines) :
    Dialogue.Alike shown (Hands options shown s) (TwinEndsAs .applied options options' shown)
      false (override options request s) (override options' request s) := by
  rw [override, override, verify, verify, hverify]
  split
  · next on =>
    have htrusted : ∀ v : SessionState, options.verifyBeforeOverride = false → v = s :=
      fun _ off => absurd on (by simp [off])
    refine .read (fun hwrote => absurd hwrote (by simp))
      (fun e => .done (twinEndsAs_error hknown (.host e))) fun lines hlines => ?_
    simp only
    split
    · exact alike_perform request hdistinct hknown (htrusted s)
    · simp only [adopt, Dialogue.bind_logAll]
      refine Dialogue.Alike.logAll (alike_perform request hdistinct ?_ (htrusted _)) rfl
      rw [model_takeOver_document]
      exact hlines
  · exact alike_perform request hdistinct hknown fun _ => rfl

/-- A refresh sends no patch, so it is alike with all options. -/
theorem alike_refresh (hknown : shown s.model.document.lines) (hlines : shown lines) :
    Dialogue.Alike shown (Hands options shown begun) (TwinEndsAs .refreshed options options' shown)
      false (refresh s (.ofLines lines)) (refresh s (.ofLines lines)) := by
  rw [refresh]
  split
  · exact .log _ _ (.done ⟨rfl, hknown, .refreshed _⟩)
  · simp only [adopt, Dialogue.bind_logAll]
    refine Dialogue.Alike.logAll (.done ⟨rfl, ?_, .refreshed _⟩) rfl
    change shown (s.takeOver (.ofLines lines)).model.document.lines
    rw [model_takeOver_document]
    exact hlines

/-- Dialogues that are alike stay so when their answers are wrapped. -/
theorem alike_wrapped {γ : Type} {wrap : γ → Answer} {wrote : Bool}
    {d d' : Dialogue (SessionState × Except SessionError γ)}
    (h : Dialogue.Alike shown (Hands options shown begun) (TwinEndsAs wrap options options' shown)
      wrote d d') :
    Dialogue.Alike shown (Hands options shown begun) (TwinEnds options options' shown) wrote
      (d.bind fun a => .done (a.1, a.2.map wrap)) (d'.bind fun a => .done (a.1, a.2.map wrap)) :=
  h.map (fun _ _ hends => hends) fun _ _ hhands => hhands.map

/-- What a call does is alike in sessions that send other patches for the same edit. -/
theorem alike_body (hverify : options'.verifyBeforeOverride = options.verifyBeforeOverride)
    (hdistinct : NoCollision shown) (hknown : shown s.model.document.lines) {c : Call}
    (htold : Told shown c) :
    Dialogue.Alike shown (Hands options shown s) (TwinEnds options options' shown) false
      (c.body options s) (c.body options' s) := by
  cases c with
  | override request => exact alike_wrapped (alike_override request hverify hdistinct hknown)
  | externalChange lines => exact alike_wrapped (alike_refresh hknown (htold lines rfl))
  | reload =>
      have hreload : Dialogue.Alike shown (Hands options shown s)
          (TwinEndsAs .refreshed options options' shown) false (reload s) (reload s) :=
        .read (fun hwrote => absurd hwrote (by simp))
          (fun e => .done (twinEndsAs_error hknown (.host e)))
          fun _ hlines => alike_refresh hknown hlines
      exact alike_wrapped hreload

end Session

end AnnotatedEnv
