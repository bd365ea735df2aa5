/-
Module: AnnotatedEnv.Proofs.History
Purpose: Sessions over a host in memory, along all that calls and other editors may do.
Main exports: Move, Opened, Opened.play, Opened.Seen, SessionState.Sound, Opened.sound_play,
  Opened.inStep_play_iff, Opened.override_keeps_edits_iff
Overrides tell changed content from known content by the digest alone, so what is said here about a
history supposes that no two contents in it share a digest.
-/
import Mathlib.Data.List.Induction
import AnnotatedEnv.Proofs.Memory

namespace AnnotatedEnv

/-! ### Histories -/

/-- What may happen to an open session. -/
inductive Move where
  /-- Others leave the host like this. -/
  | outside (host : MemoryHost)
  | call (call : Call)
  deriving DecidableEq, Repr

/-- An open session with its host. -/
structure Opened where
  state : SessionState
  host : MemoryHost

namespace Opened

def call (options : SessionOptions) (w : Opened) (c : Call) :
    Dialogue.Outcome MemoryHost (SessionState × Except SessionError Answer) :=
  (c.body options w.state).run w.host

def answer (options : SessionOptions) (w : Opened) (c : Call) : Except SessionError Answer :=
  (w.call options c).value.2

def move (options : SessionOptions) (w : Opened) : Move → Opened
  | .outside host => { w with host }
  | .call c => ⟨(w.call options c).value.1, (w.call options c).host⟩

/-- Let some things happen one after another. -/
def play (options : SessionOptions) (w : Opened) (moves : List Move) : Opened :=
  moves.foldl (move options) w

@[simp] theorem play_nil (options : SessionOptions) (w : Opened) : w.play options [] = w := rfl

@[simp] theorem play_cons (options : SessionOptions) (w : Opened) (m : Move) (moves : List Move) :
    w.play options (m :: moves) = (w.move options m).play options moves := rfl

/-- A history is played up to its last move first. -/
theorem play_concat (options : SessionOptions) (w : Opened) (moves : List Move) (m : Move) :
    w.play options (moves ++ [m]) = (w.play options moves).move options m := by
  simp [play]

/-- The lines that the host holds or that are told to the session in the course of a history. -/
inductive Seen (options : SessionOptions) (w : Opened) (moves : List Move) :
    List String → Prop where
  | held (done : List Move) (past : done <+: moves) :
      Seen options w moves (w.play options done).host.buffer
  | told (done : List Move) (lines : List String)
      (past : done ++ [.call (.externalChange lines)] <+: moves) : Seen options w moves lines

end Opened

/-! ### Sound states -/

/-- The state holds what reading its lines gives, and its library is faithful. -/
structure SessionState.Sound (s : SessionState) (options : LoadOptions)
    (seen : List String → Prop) : Prop where
  library : s.library.Faithful options seen
  seen : seen s.model.document.lines
  loaded : s.held.loaded = Loaded.ofDocument (.ofLines s.model.document.lines) options

namespace SessionState

variable {s : SessionState} {options : LoadOptions} {seen : List String → Prop}

/-- The model of a sound state is what its own lines are read as. -/
theorem Sound.model_eq (h : s.Sound options seen) :
    s.model = Model.ofDocument (.ofLines s.model.document.lines) options := by
  rw [Model.ofDocument, ← h.loaded]
  rfl

/-- Known lines that have the digest of the open document are its lines. -/
theorem Sound.lines_eq (h : s.Sound options seen) (hdistinct : NoCollision seen)
    {lines : List String} (hseen : seen lines)
    (hdigest : Digest.ofLines lines = s.model.document.digest) :
    lines = s.model.document.lines := by
  apply hdistinct lines s.model.document.lines hseen h.seen
  rw [hdigest, s.model.document.digest_eq]

/-- Loading known lines gives a sound state, whatever becomes of the configuration. -/
theorem sound_load {library : Library} (h : library.Faithful options seen)
    (hdistinct : NoCollision seen) {lines : List String} (hseen : seen lines)
    (effective changes : Settings) :
    Sound ⟨(library.load (.ofLines lines)).2, (library.load (.ofLines lines)).1, effective, changes⟩
      options seen := by
  have hseenDocument : seen (Document.ofLines lines).lines := hseen
  have hlines : (library.load (.ofLines lines)).1.model.document.lines = lines := by
    rw [h.model_load hdistinct hseenDocument, Model.document_ofDocument]
    rfl
  refine ⟨h.load hseenDocument, ?_, ?_⟩
  · rw [model, hlines]
    exact hseen
  · rw [model, hlines]
    exact h.loaded_load hdistinct hseenDocument

/-- Taking lines over keeps a state sound. -/
theorem Sound.takeOver (h : s.Sound options seen) (hdistinct : NoCollision seen)
    {lines : List String} (hseen : seen lines) : (s.takeOver (.ofLines lines)).Sound options seen :=
  sound_load h.library hdistinct hseen _ _

/-- Lines that are taken over are read anew, whatever the shelf holds. -/
theorem Sound.model_takeOver (h : s.Sound options seen) (hdistinct : NoCollision seen)
    {lines : List String} (hseen : seen lines) :
    (s.takeOver (.ofLines lines)).model = Model.ofDocument (.ofLines lines) options :=
  h.library.model_load hdistinct (d := .ofLines lines) hseen

end SessionState

namespace Session

variable {options : SessionOptions} {request : Request} {s s' v : SessionState}
  {host host' h : MemoryHost} {seen : List String → Prop}

/-- Verification keeps a state sound. -/
theorem Verified.sound (hverified : Verified options s host v h) (hs : s.Sound options.load seen)
    (hdistinct : NoCollision seen) (hseen : seen host.buffer) : v.Sound options.load seen := by
  cases hverified with
  | trusted off => exact hs
  | same on read digest_eq => exact hs
  | changed on read digest_ne =>
      rw [← MemoryHost.lines_of_read read] at hseen
      exact hs.takeOver hdistinct hseen

/-- So does an override, however it ends. -/
theorem Overridden.sound {result : Except SessionError Applied}
    (hend : Overridden options request s host s' host' result) (hs : s.Sound options.load seen)
    (hdistinct : NoCollision seen) (hseen : seen host.buffer) (hseen' : seen host'.buffer) :
    s'.Sound options.load seen := by
  cases hend with
  | unverified on read => exact hs
  | refused verified refused => exact verified.sound hs hdistinct hseen
  | unchanged verified accepted noop =>
      have hv := verified.sound hs hdistinct hseen
      exact ⟨hv.library, hv.seen, hv.loaded⟩
  | unapplied verified accepted changes apply => exact verified.sound hs hdistinct hseen
  | unsaved verified accepted changes apply applied save => exact verified.sound hs hdistinct hseen
  | unread verified accepted changes apply applied save saved read =>
      exact verified.sound hs hdistinct hseen
  | written verified accepted changes apply applied save saved read =>
      rw [MemoryHost.host_read, ← MemoryHost.lines_of_read read] at hseen'
      have hv := verified.sound hs hdistinct hseen
      exact SessionState.sound_load hv.library hdistinct hseen' _ _

/-- After an override that wrote something the session holds the model of what the host was left
with. -/
theorem Overridden.model_eq {applied : Applied}
    (hend : Overridden options request s host s' host' (.ok applied))
    (hchanges : applied.changes.isEmpty = false) (hs : s.Sound options.load seen)
    (hdistinct : NoCollision seen) (hseen : seen host.buffer) (hseen' : seen host'.buffer) :
    s'.model = Model.ofDocument (.ofLines host'.buffer) options.load := by
  cases hend with
  | unchanged verified accepted noop =>
      exact absurd hchanges (by simp [OrderedMap.isEmpty, OrderedMap.empty])
  | written verified accepted changes apply applied save saved read =>
      rw [MemoryHost.host_read, ← MemoryHost.lines_of_read read] at hseen' ⊢
      have hv := verified.sound hs hdistinct hseen
      exact hv.library.model_load hdistinct (d := .ofLines _) hseen'

end Session

/-! ### Moves -/

namespace Opened

variable {options : SessionOptions} {w : Opened} {seen : List String → Prop}

/-- A history of one override shows what the host holds before and after it. -/
theorem seen_override {request : Request} {lines : List String}
    (h : Seen options w [.call (.override request)] lines) :
    lines = w.host.buffer ∨ lines = (w.move options (.call (.override request))).host.buffer := by
  cases h with
  | held done past =>
      rcases List.prefix_cons_iff.1 past with rfl | ⟨rest, rfl, hrest⟩
      · exact Or.inl rfl
      · obtain rfl := List.prefix_nil.1 hrest
        exact Or.inr rfl
  | told done lines past =>
      have hlength := past.length_le
      have hnil : done = [] := by
        apply List.eq_nil_of_length_eq_zero
        simpa using hlength
      rw [hnil, List.nil_append, List.cons_prefix_cons] at past
      exact absurd past.1 (by simp)

/-- An override moves the session and the host as it runs on them. -/
theorem move_override (options : SessionOptions) (w : Opened) (request : Request) :
    w.move options (.call (.override request)) =
      ⟨((Session.override options request w.state).run w.host).value.1,
        ((Session.override options request w.state).run w.host).host⟩ := by
  simp only [move, call, Call.body, Dialogue.run_bind]
  rfl

/-- It answers what it ends with. -/
theorem answer_override (options : SessionOptions) (w : Opened) (request : Request) :
    w.answer options (.override request) =
      ((Session.override options request w.state).run w.host).value.2.map .applied := by
  simp only [answer, call, Call.body, Dialogue.run_bind]
  rfl

/-- An override ends at one of its points. -/
theorem overridden_move (options : SessionOptions) (w : Opened) (request : Request) :
    ∃ result, w.answer options (.override request) = result.map .applied ∧
      Session.Overridden options request w.state w.host
        (w.move options (.call (.override request))).state
        (w.move options (.call (.override request))).host result := by
  refine ⟨_, answer_override options w request, ?_⟩
  rw [move_override]
  exact Session.overridden_run options request w.state w.host

/-- An override that answers with changes ends with them. -/
theorem overridden_of_applied {request : Request} {applied : Applied}
    (h : w.answer options (.override request) = .ok (.applied applied)) :
    Session.Overridden options request w.state w.host
      (w.move options (.call (.override request))).state
      (w.move options (.call (.override request))).host (.ok applied) := by
  obtain ⟨result, hanswer, hend⟩ := overridden_move options w request
  rw [hanswer] at h
  cases result with
  | error e => exact absurd h (by simp [Except.map])
  | ok applied' =>
      simp only [Except.map, Except.ok.injEq, Answer.applied.injEq] at h
      exact h ▸ hend

/-- Lines that the session is told of are taken over if their digest is another one. -/
theorem state_externalChange (options : SessionOptions) (w : Opened) (lines : List String) :
    (w.move options (.call (.externalChange lines))).state =
      if Digest.ofLines lines = w.state.model.document.digest then w.state
      else w.state.takeOver (.ofLines lines) := by
  have hrefresh := (Session.refresh_run w.state (.ofLines lines) w.host).2
  simp only [move, call, Call.body, Session.externalChange, Dialogue.run_bind, hrefresh]
  by_cases hdigest : Digest.ofLines lines = w.state.model.document.digest
  · have hsame : (Document.ofLines lines).digest = w.state.model.document.digest := hdigest
    simp only [if_pos hdigest, if_pos hsame]
    rfl
  · have hchanged : ¬ (Document.ofLines lines).digest = w.state.model.document.digest := hdigest
    simp only [if_neg hdigest, if_neg hchanged]
    rfl

/-- A reload does what being told the lines of the host does, unless reading fails. -/
theorem state_reload (options : SessionOptions) (w : Opened) :
    (w.move options (.call .reload)).state = w.state ∨
      (w.move options (.call .reload)).state =
        (w.move options (.call (.externalChange w.host.buffer))).state := by
  have hreload := (Session.reload_run w.state w.host).2
  cases hread : (Host.read w.host).result with
  | error e =>
      left
      rw [hread] at hreload
      simp only [move, call, Call.body, Dialogue.run_bind, hreload]
      rfl
  | ok lines =>
      right
      rw [hread] at hreload
      simp only [move, call, Call.body, Session.externalChange, Dialogue.run_bind, hreload,
        MemoryHost.lines_of_read hread, MemoryHost.host_read]
      rfl

/-- Where the library finds nothing the lines of a reliable host tell what an override does. -/
theorem move_of_holdsOnly (options : SessionOptions) {request : Request}
    (hreliable : w.host.Reliable) (hminimal : options.minimalPatches = false)
    (hholds : Session.HoldsOnly w.state options.load w.host.buffer) {effective changes : Settings}
    {instructions : List LinePatch}
    (hparts : ((Model.ofDocument (.ofLines w.host.buffer) options.load).edit w.state.effective
        request).map (fun e => (e.effective, e.changes, e.patch.instructions)) =
      .ok (effective, changes, instructions))
    (hchanges : changes.isEmpty = false) :
    let after := w.move options (.call (.override request))
    let lines := Patch.replaceLines w.host.buffer instructions
    (∃ patch, w.answer options (.override request) = .ok (.applied ⟨patch, changes⟩)) ∧
      after.host = Session.landed w.host lines ∧ after.state.effective = effective ∧
      Session.HoldsOnly after.state options.load (Session.landed w.host lines).buffer := by
  obtain ⟨⟨patch, hresult⟩, hhost, heffective, hafter⟩ :=
    Session.override_run_of_holdsOnly hreliable hminimal hholds hparts hchanges
  rw [move_override, answer_override, hresult]
  exact ⟨⟨patch, rfl⟩, hhost, heffective, hafter⟩

/-! ### What one move preserves -/

theorem sound_externalChange (hs : w.state.Sound options.load seen) (hdistinct : NoCollision seen)
    {lines : List String} (hseen : seen lines) :
    (w.move options (.call (.externalChange lines))).state.Sound options.load seen := by
  rw [state_externalChange]
  split
  · exact hs
  · exact hs.takeOver hdistinct hseen

/-- A move keeps a state sound if all that it shows to the session is known. -/
theorem sound_move {m : Move} (hs : w.state.Sound options.load seen) (hdistinct : NoCollision seen)
    (hseen : seen w.host.buffer) (hseen' : seen (w.move options m).host.buffer)
    (htold : ∀ lines, m = .call (.externalChange lines) → seen lines) :
    (w.move options m).state.Sound options.load seen := by
  cases m with
  | outside host => exact hs
  | call c =>
      cases c with
      | override request =>
          obtain ⟨result, _, hend⟩ := overridden_move options w request
          exact hend.sound hs hdistinct hseen hseen'
      | externalChange lines => exact sound_externalChange hs hdistinct (htold lines rfl)
      | reload =>
          rcases state_reload options w with hstate | hstate
          · rw [hstate]
            exact hs
          · rw [hstate]
            exact sound_externalChange hs hdistinct hseen

/-- Being told of lines does not bring a session out of step. -/
theorem inStep_externalChange (hs : w.state.InStep) (lines : List String) :
    (w.move options (.call (.externalChange lines))).state.InStep := by
  rw [state_externalChange]
  split
  · exact hs
  · rfl

/-- Every move keeps a state in step, but for an override that writes something. -/
theorem inStep_move {m : Move} (hs : w.state.InStep)
    (hunchanged : ∀ request applied, m = .call (.override request) →
      w.answer options (.override request) = .ok (.applied applied) →
      applied.changes.isEmpty = true) : (w.move options m).state.InStep := by
  cases m with
  | outside host => exact hs
  | call c =>
      cases c with
      | override request =>
          obtain ⟨result, hanswer, hend⟩ := overridden_move options w request
          refine hend.inStep hs fun applied hresult => ?_
          exact hunchanged request applied rfl (by rw [hanswer, hresult]; rfl)
      | externalChange lines => exact inStep_externalChange hs lines
      | reload =>
          rcases state_reload options w with hstate | hstate
          · rw [hstate]
            exact hs
          · rw [hstate]
            exact inStep_externalChange hs w.host.buffer

/-! ### What a history preserves -/

/-- A session that opening a host gives, whatever its cache for models keeps. -/
def OpensAs (options : SessionOptions) (host : MemoryHost) (state : SessionState) : Prop :=
  ∃ cache, ((Session.start options cache).run host).value = .ok state

/-- A session opens as what the lines of the host are read as, with some cache or other. -/
theorem state_of_opensAs {host : MemoryHost} {state : SessionState}
    (h : OpensAs options host state) :
    ∃ cache, state = Session.opened options.load cache host.buffer := by
  obtain ⟨cache, hstart⟩ := h
  rw [(Session.start_run options cache host).2] at hstart
  cases hread : (Host.read host).result with
  | error e =>
      rw [hread] at hstart
      exact absurd hstart (by simp [Except.map])
  | ok lines =>
      rw [hread] at hstart
      rw [← MemoryHost.lines_of_read hread]
      exact ⟨cache, (Except.ok.inj hstart).symm⟩

/-- Every session opens in step. -/
theorem inStep_of_opensAs {host : MemoryHost} {state : SessionState}
    (h : OpensAs options host state) : state.InStep := by
  obtain ⟨cache, rfl⟩ := state_of_opensAs h
  rfl

/-- A host that can be read opens with any cache. -/
theorem opensAs_opened (options : SessionOptions) (cache : Cache) {host : MemoryHost}
    (hreliable : host.Reliable) :
    OpensAs options host (Session.opened options.load cache host.buffer) := by
  refine ⟨cache, ?_⟩
  rw [(Session.start_run options cache host).2, hreliable.read]
  rfl

/-- A reliable host can be opened, and without room in the cache nothing but its lines is held. -/
theorem exists_opensAs (options : SessionOptions) {host : MemoryHost} (hreliable : host.Reliable)
    (hroom : options.load.cacheCapacity = 0) :
    ∃ state, OpensAs options host state ∧
      Session.HoldsOnly state options.load host.buffer ∧
      state.effective = (Model.ofDocument (.ofLines host.buffer) options.load).baseline := by
  obtain ⟨hloaded, hnothing, hoptions⟩ :=
    (Library.findsNothing_new hroom).load (.ofLines host.buffer)
  have hmodel : (Session.opened options.load .limited host.buffer).model =
      Model.ofDocument (.ofLines host.buffer) options.load := congrArg Loaded.model hloaded
  exact ⟨_, opensAs_opened options .limited hreliable, ⟨hmodel, hoptions, hnothing⟩,
    congrArg Model.baseline hmodel⟩

variable {host : MemoryHost} {state : SessionState} {moves : List Move}

/-- Along a history without collisions the session holds what reading its lines gives. -/
theorem sound_play (hopen : OpensAs options host state)
    (hdistinct : NoCollision (Seen options ⟨state, host⟩ moves)) {done : List Move}
    (hdone : done <+: moves) :
    (play options ⟨state, host⟩ done).state.Sound options.load
      (Seen options ⟨state, host⟩ moves) := by
  induction done using List.reverseRecOn with
  | nil =>
      have hseen : Seen options ⟨state, host⟩ moves host.buffer := .held [] hdone
      obtain ⟨cache, rfl⟩ := state_of_opensAs hopen
      exact SessionState.sound_load (Library.faithful_new options.load cache _) hdistinct hseen _ _
  | append_singleton done m ih =>
      have hpast : done <+: moves := (List.prefix_append done [m]).trans hdone
      have hafter : Seen options ⟨state, host⟩ moves _ := .held (done ++ [m]) hdone
      rw [play_concat] at hafter ⊢
      refine sound_move (ih hpast) hdistinct (.held done hpast) hafter ?_
      rintro lines rfl
      exact .told done lines hdone

def forgetful : SessionOptions := { load := { cacheCapacity := 0 } }

/-- Setting a key to the value it has is written and changes no line. -/
theorem move_same_value :
    ∃ state,
      OpensAs forgetful (.ofLines ["// @env-template", "A=1"]) state ∧
        let w : Opened := ⟨state, .ofLines ["// @env-template", "A=1"]⟩
        let after := w.move forgetful (.call (.override (.setValue "A" "1")))
        NoCollision (Seen forgetful w [.call (.override (.setValue "A" "1"))]) ∧
          (∃ patch, w.answer forgetful (.override (.setValue "A" "1")) =
            .ok (.applied ⟨patch, .ofList [("A", "1")]⟩)) ∧
          after.host.buffer = ["// @env-template", "A=1"] ∧
          after.state.effective = .ofList [("A", "1")] := by
  have hreliable : (MemoryHost.ofLines ["// @env-template", "A=1"]).Reliable := ⟨rfl, rfl, rfl⟩
  obtain ⟨state, hopen, hholds, heffective⟩ := exists_opensAs forgetful hreliable rfl
  have hparts : ((Model.ofDocument (.ofLines ["// @env-template", "A=1"]) forgetful.load).edit
        state.effective (.setValue "A" "1")).map
          (fun e => (e.effective, e.changes, e.patch.instructions)) =
      .ok (.ofList [("A", "1")], .ofList [("A", "1")], [⟨1, "A=1"⟩]) := by
    rw [heffective]
    decide +kernel
  obtain ⟨hanswer, hhost, hafter, _⟩ :=
    move_of_holdsOnly forgetful (w := ⟨state, .ofLines ["// @env-template", "A=1"]⟩) hreliable
      rfl hholds hparts (by decide)
  refine ⟨state, hopen, ?_, hanswer, congrArg MemoryHost.buffer hhost, hafter⟩
  have hall : ∀ lines, Seen forgetful ⟨state, .ofLines ["// @env-template", "A=1"]⟩
      [.call (.override (.setValue "A" "1"))] lines → lines = ["// @env-template", "A=1"] := by
    intro lines hseen
    rcases seen_override hseen with rfl | rfl
    · rfl
    · exact congrArg MemoryHost.buffer hhost
  intro lines lines' hseen hseen' _
  rw [hall lines hseen, hall lines' hseen']

/-- A line is edited while the host saves, which is the one way of an edit into the written lines
that no call begins with. -/
theorem move_save_edit :
    ∃ state,
      OpensAs forgetful
          { buffer := ["// @env-template", "A=1", "B=2"]
            saved := ["// @env-template", "A=1", "B=2"], onSave := some (1, "A=9") } state ∧
        let w : Opened :=
          ⟨state,
            { buffer := ["// @env-template", "A=1", "B=2"]
              saved := ["// @env-template", "A=1", "B=2"], onSave := some (1, "A=9") }⟩
        let after := w.move forgetful (.call (.override (.setValue "B" "3")))
        after.host.buffer = ["// @env-template", "A=9", "B=3"] ∧ after.host.Reliable ∧
          after.state.effective = .ofList [("A", "1"), ("B", "3")] ∧
          Session.HoldsOnly after.state forgetful.load after.host.buffer := by
  have hreliable : MemoryHost.Reliable
      { buffer := ["// @env-template", "A=1", "B=2"]
        saved := ["// @env-template", "A=1", "B=2"], onSave := some (1, "A=9") } := ⟨rfl, rfl, rfl⟩
  obtain ⟨state, hopen, hholds, heffective⟩ := exists_opensAs forgetful hreliable rfl
  have hparts : ((Model.ofDocument (.ofLines ["// @env-template", "A=1", "B=2"])
        forgetful.load).edit state.effective (.setValue "B" "3")).map
          (fun e => (e.effective, e.changes, e.patch.instructions)) =
      .ok (.ofList [("A", "1"), ("B", "3")], .ofList [("B", "3")], [⟨1, "A=1"⟩, ⟨2, "B=3"⟩]) := by
    rw [heffective]
    decide +kernel
  obtain ⟨_, hhost, hafter, hheld⟩ :=
    move_of_holdsOnly forgetful (w := ⟨state, _⟩) hreliable rfl hholds hparts (by decide)
  refine ⟨state, hopen, ?_, ?_, hafter, ?_⟩
  · rw [hhost]
    rfl
  · rw [hhost]
    exact ⟨rfl, rfl, rfl⟩
  · rw [hhost]
    exact hheld

/-! ### States in step -/

/-- The configuration of a session is the one that its document gives, after opening and after all
that happens, exactly if every override that wrote something left the host with lines that give
the configuration it computed. -/
theorem inStep_play_iff (options : SessionOptions) (host : MemoryHost) (state : SessionState)
    (moves : List Move) (hopen : OpensAs options host state)
    (hdistinct : NoCollision (Seen options ⟨state, host⟩ moves)) :
    (∀ done, done <+: moves → (play options ⟨state, host⟩ done).state.InStep) ↔
      ∀ done request applied, done ++ [.call (.override request)] <+: moves →
        (play options ⟨state, host⟩ done).answer options (.override request) =
          .ok (.applied applied) →
        applied.changes.isEmpty = false →
        let after := play options ⟨state, host⟩ (done ++ [.call (.override request)])
        (Model.ofDocument (.ofLines after.host.buffer) options.load).baseline =
          after.state.effective := by
  have hmodel : ∀ done request applied, done ++ [.call (.override request)] <+: moves →
      (play options ⟨state, host⟩ done).answer options (.override request) =
        .ok (.applied applied) →
      applied.changes.isEmpty = false →
      (play options ⟨state, host⟩ (done ++ [.call (.override request)])).state.model =
        Model.ofDocument (.ofLines
          (play options ⟨state, host⟩ (done ++ [.call (.override request)])).host.buffer)
          options.load := by
    intro done request applied hdone hanswer hchanges
    have hpast : done <+: moves := (List.prefix_append done _).trans hdone
    have hafter : Seen options ⟨state, host⟩ moves _ := .held _ hdone
    rw [play_concat] at hafter ⊢
    exact (overridden_of_applied hanswer).model_eq hchanges (sound_play hopen hdistinct hpast)
      hdistinct (.held done hpast) hafter
  constructor
  · intro hsteps done request applied hdone hanswer hchanges
    have hstep := hsteps _ hdone
    rw [SessionState.InStep, hmodel done request applied hdone hanswer hchanges] at hstep
    exact hstep.symm
  · intro hread done
    induction done using List.reverseRecOn with
    | nil =>
        intro _
        exact inStep_of_opensAs hopen
    | append_singleton done m ih =>
        intro hdone
        have hpast : done <+: moves := (List.prefix_append done [m]).trans hdone
        by_cases hwritten : ∃ request applied, m = .call (.override request) ∧
            (play options ⟨state, host⟩ done).answer options (.override request) =
              .ok (.applied applied) ∧ applied.changes.isEmpty = false
        · obtain ⟨request, applied, rfl, hanswer, hchanges⟩ := hwritten
          rw [SessionState.InStep, hmodel done request applied hdone hanswer hchanges]
          exact (hread done request applied hdone hanswer hchanges).symm
        · rw [play_concat]
          refine inStep_move (ih hpast) ?_
          intro request applied hm hanswer
          cases hempty : applied.changes.isEmpty with
          | true => rfl
          | false => exact absurd ⟨request, applied, hm, hanswer, hempty⟩ hwritten

/-- Setting a key to the value it has leaves the session in step. -/
theorem inStep_of_same_value :
    ∃ state,
      OpensAs forgetful (.ofLines ["// @env-template", "A=1"]) state ∧
        (play forgetful ⟨state, .ofLines ["// @env-template", "A=1"]⟩
          [.call (.override (.setValue "A" "1"))]).state.InStep := by
  obtain ⟨state, hopen, hdistinct, _, hbuffer, heffective⟩ := move_same_value
  refine ⟨state, hopen, (inStep_play_iff _ _ _ _ hopen hdistinct).2 ?_ _ (List.prefix_refl _)⟩
  intro done request applied hdone _ _
  have hnil : done = [] := by
    apply List.eq_nil_of_length_eq_zero
    simpa using hdone.length_le
  subst hnil
  obtain ⟨rfl⟩ : request = .setValue "A" "1" := by
    simpa [List.cons_prefix_cons] using hdone
  simp only [List.nil_append, play_cons, play_nil, hbuffer, heffective]
  decide +kernel

/-- An edit while the host saves reaches the model of the session, but not its configuration. -/
theorem save_edit_leaves_step :
    ∃ state,
      OpensAs forgetful
          { buffer := ["// @env-template", "A=1", "B=2"]
            saved := ["// @env-template", "A=1", "B=2"], onSave := some (1, "A=9") } state ∧
        ¬ (play forgetful
          ⟨state,
            { buffer := ["// @env-template", "A=1", "B=2"]
              saved := ["// @env-template", "A=1", "B=2"], onSave := some (1, "A=9") }⟩
          [.call (.override (.setValue "B" "3"))]).state.InStep := by
  obtain ⟨state, hopen, hbuffer, _, heffective, hholds⟩ := move_save_edit
  refine ⟨state, hopen, ?_⟩
  rw [play_cons, play_nil, SessionState.InStep, heffective, hholds.model_eq, hbuffer]
  decide +kernel

/-! ### Edits of others -/

/-- An accepted override with verification keeps the values of the host exactly if the host had
changed behind the session, or the session was in step in the keys that stay. -/
theorem override_keeps_edits_iff (options : SessionOptions) (host : MemoryHost)
    (state : SessionState) (moves : List Move) (request : Request) (applied : Applied)
    (hverify : options.verifyBeforeOverride = true) (hopen : OpensAs options host state)
    (hdistinct : NoCollision
      (Seen options ⟨state, host⟩ (moves ++ [.call (.override request)])))
    (hanswer : (play options ⟨state, host⟩ moves).answer options (.override request) =
      .ok (.applied applied)) :
    let before := play options ⟨state, host⟩ moves
    let after := before.move options (.call (.override request))
    let found := (Model.ofDocument (.ofLines before.host.buffer) options.load).baseline
    (∀ key ∈ found.keys, key ∉ applied.changes.keys →
        after.state.effective.get? key = found.get? key) ↔
      before.host.buffer ≠ before.state.model.document.lines ∨
        ∀ key ∈ before.state.model.baseline.keys, key ∉ applied.changes.keys →
          before.state.effective.get? key = before.state.model.baseline.get? key := by
  intro before after found
  have hpast : moves <+: moves ++ [.call (.override request)] := List.prefix_append _ _
  have hsound : before.state.Sound options.load _ := sound_play hopen hdistinct hpast
  have hseen : Seen options ⟨state, host⟩ (moves ++ [.call (.override request)]) _ :=
    .held moves hpast
  obtain ⟨v, h, hverified, hkept⟩ := (overridden_of_applied hanswer).get?_effective
  cases hverified with
  | trusted off => exact absurd hverify (by simp [off])
  | same on read digest_eq =>
      rw [MemoryHost.lines_of_read read] at digest_eq
      have hlines := hsound.lines_eq hdistinct hseen digest_eq
      have hfound : found = before.state.model.baseline := by
        have hmodel := hsound.model_eq
        rw [← hlines] at hmodel
        exact (congrArg Model.baseline hmodel).symm
      rw [hfound]
      constructor
      · intro hkeeps
        refine Or.inr fun key hkey hnot => ?_
        exact (hkept key hnot).symm.trans (hkeeps key hkey hnot)
      · rintro (hne | hstep) key hkey hnot
        · exact absurd hlines hne
        · exact (hkept key hnot).trans (hstep key hkey hnot)
  | changed on read digest_ne =>
      rw [MemoryHost.lines_of_read read] at digest_ne hkept
      have hne : before.host.buffer ≠ before.state.model.document.lines := by
        intro heq
        exact digest_ne (heq ▸ before.state.model.document.digest_eq.symm)
      have hfound : (before.state.takeOver (.ofLines before.host.buffer)).effective = found :=
        congrArg Model.baseline (hsound.model_takeOver hdistinct hseen)
      constructor
      · intro _
        exact Or.inl hne
      · intro _ key _ hnot
        rw [← hfound]
        exact hkept key hnot

/-- Setting a key to the value it has keeps what the host holds. -/
theorem same_value_keeps_edits :
    ∃ state applied,
      OpensAs forgetful (.ofLines ["// @env-template", "A=1"]) state ∧
        let w : Opened := ⟨state, .ofLines ["// @env-template", "A=1"]⟩
        w.answer forgetful (.override (.setValue "A" "1")) = .ok (.applied applied) ∧
          ∀ key ∈ (Model.ofDocument (.ofLines w.host.buffer) forgetful.load).baseline.keys,
            key ∉ applied.changes.keys →
              (w.move forgetful (.call (.override (.setValue "A" "1")))).state.effective.get? key =
                (Model.ofDocument (.ofLines w.host.buffer) forgetful.load).baseline.get? key := by
  obtain ⟨state, hopen, hdistinct, ⟨patch, hanswer⟩, _, _⟩ := move_same_value
  refine ⟨state, ⟨patch, .ofList [("A", "1")]⟩, hopen, hanswer, ?_⟩
  refine (override_keeps_edits_iff forgetful _ state [] _ _ rfl hopen hdistinct hanswer).2 ?_
  refine Or.inr fun key _ _ => ?_
  exact congrArg (·.get? key) (inStep_of_opensAs hopen)

/-- The next override puts the older value back over an edit made while the host saved. -/
theorem override_undoes_save_edit :
    ∃ state patch,
      OpensAs forgetful
          { buffer := ["// @env-template", "A=1", "B=2"]
            saved := ["// @env-template", "A=1", "B=2"], onSave := some (1, "A=9") } state ∧
        let w := play forgetful
          ⟨state,
            { buffer := ["// @env-template", "A=1", "B=2"]
              saved := ["// @env-template", "A=1", "B=2"], onSave := some (1, "A=9") }⟩
          [.call (.override (.setValue "B" "3")),
            .outside
              { buffer := ["// @env-template", "A=9", "B=3"]
                saved := ["// @env-template", "A=9", "B=3"], patches := 1, saves := 1 }]
        w.answer forgetful (.override (.setValue "B" "4")) =
            .ok (.applied ⟨patch, .ofList [("B", "4")]⟩) ∧
          (Model.ofDocument (.ofLines w.host.buffer) forgetful.load).baseline.get? "A" = some "9" ∧
          (w.move forgetful (.call (.override (.setValue "B" "4")))).state.effective.get? "A" =
            some "1" := by
  obtain ⟨state, hopen, hbuffer, _, heffective, hholds⟩ := move_save_edit
  rw [hbuffer] at hholds
  have hreliable : MemoryHost.Reliable
      { buffer := ["// @env-template", "A=9", "B=3"]
        saved := ["// @env-template", "A=9", "B=3"], patches := 1, saves := 1 } := ⟨rfl, rfl, rfl⟩
  have hparts : ((Model.ofDocument (.ofLines ["// @env-template", "A=9", "B=3"])
        forgetful.load).edit (.ofList [("A", "1"), ("B", "3")]) (.setValue "B" "4")).map
          (fun e => (e.effective, e.changes, e.patch.instructions)) =
      .ok (.ofList [("A", "1"), ("B", "4")], .ofList [("B", "4")], [⟨1, "A=1"⟩, ⟨2, "B=4"⟩]) := by
    decide +kernel
  rw [← heffective] at hparts
  obtain ⟨⟨patch, hanswer⟩, _, hafter, _⟩ :=
    move_of_holdsOnly forgetful (w := ⟨_, _⟩) hreliable rfl hholds hparts (by decide)
  have hfound : (Model.ofDocument (.ofLines ["// @env-template", "A=9", "B=3"])
      forgetful.load).baseline.get? "A" = some "9" := by decide +kernel
  refine ⟨state, patch, hopen, hanswer, ?_, ?_⟩
  · rw [play_cons, play_cons, play_nil, move]
    exact hfound
  · rw [play_cons, play_cons, play_nil, move, hafter]
    decide +kernel

end Opened

end AnnotatedEnv
