/-
Module: AnnotatedEnv.Proofs.Memory
Purpose: What a host in memory answers, and an override over one on which nothing fails.
Main exports: MemoryHost.host_read, MemoryHost.lines_of_read, MemoryHost.Reliable, Session.landed,
  Session.override_run_of_reliable
-/
import AnnotatedEnv.Host.Memory
import AnnotatedEnv.Proofs.Session

namespace AnnotatedEnv

/-! ### The host -/

namespace MemoryHost

theorem host_read (host : MemoryHost) : (Host.read host).host = host := by
  change (read host).host = host
  rw [read]
  split <;> rfl

theorem lines_of_read {host : MemoryHost} {lines : List String}
    (h : (Host.read host).result = .ok lines) : lines = host.buffer := by
  change (read host).result = .ok lines at h
  rw [read] at h
  split at h
  · exact absurd h (by simp)
  · exact (Except.ok.inj h).symm

/-- Nothing but the buffer changes right before a save. -/
theorem beforeSave_eq (host : MemoryHost) :
    host.beforeSave = { host with buffer := host.beforeSave.buffer } := by
  rw [beforeSave]
  split <;> rfl

/-- A patch is refused and changes nothing, is dropped, or lands. -/
theorem apply_cases (patch : Patch) (host : MemoryHost) :
    (∃ e, (Host.apply patch host).result = .error e ∧ (Host.apply patch host).host = host) ∨
      ((Host.apply patch host).result = .ok () ∧ host.dropsPatches = true ∧
        (Host.apply patch host).host = host) ∨
      ∃ written, patch.applyTo (.ofLines host.buffer) = .ok written ∧
        (Host.apply patch host).result = .ok () ∧
        (Host.apply patch host).host =
          { host with buffer := written.lines, patches := host.patches + 1 } := by
  change (∃ e, (MemoryHost.apply patch host).result = .error e ∧
      (MemoryHost.apply patch host).host = host) ∨
    ((MemoryHost.apply patch host).result = .ok () ∧ host.dropsPatches = true ∧
      (MemoryHost.apply patch host).host = host) ∨
    ∃ written, _ ∧ (MemoryHost.apply patch host).result = .ok () ∧
      (MemoryHost.apply patch host).host = _
  rw [MemoryHost.apply]
  split
  · exact Or.inl ⟨_, rfl, rfl⟩
  · split
    · next hdrops => exact Or.inr (Or.inl ⟨rfl, hdrops, rfl⟩)
    · split
      · exact Or.inl ⟨_, rfl, rfl⟩
      · next written hwritten => exact Or.inr (Or.inr ⟨written, hwritten, rfl, rfl⟩)

/-- A save fails and leaves the saved copy, or it copies the buffer as it finds it. -/
theorem save_cases (host : MemoryHost) :
    (∃ message, (Host.save host).result = .error (.other message) ∧
        (Host.save host).host.saved = host.saved ∧ (Host.save host).host.saves = host.saves) ∨
      ((Host.save host).result = .ok () ∧
        (Host.save host).host =
          { host with
            buffer := host.beforeSave.buffer
            saved := host.beforeSave.buffer
            saves := host.saves + 1 }) := by
  by_cases hfailing : host.failing = some .save
  · have hsave : Host.save host = { result := .error (failure .save), host } := if_pos hfailing
    rw [hsave]
    exact Or.inl ⟨_, rfl, rfl, rfl⟩
  · have hbranch : Host.save host = if host.full then
          { result := .error (.other "disk full")
            host := { host with buffer := host.beforeSave.buffer } }
        else
          { result := .ok ()
            host :=
              { host with
                buffer := host.beforeSave.buffer
                saved := host.beforeSave.buffer
                saves := host.saves + 1 } } := by
      change MemoryHost.save host = _
      rw [MemoryHost.save, if_neg hfailing, beforeSave_eq]
    rw [hbranch]
    split
    · exact Or.inl ⟨_, rfl, rfl, rfl⟩
    · exact Or.inr ⟨rfl, rfl⟩

/-- No call fails and no patch is lost. -/
structure Reliable (host : MemoryHost) : Prop where
  failing : host.failing = none
  full : host.full = false
  dropsPatches : host.dropsPatches = false

/-- A reliable host hands out its buffer. -/
theorem Reliable.read {host : MemoryHost} (h : host.Reliable) :
    (Host.read host).result = .ok host.buffer := by
  change (MemoryHost.read host).result = .ok host.buffer
  rw [MemoryHost.read, if_neg (by simp [h.failing])]

/-- A reliable host takes a patch that its buffer takes, and counts it. -/
theorem Reliable.apply {host : MemoryHost} (h : host.Reliable) {patch : Patch} {written : Document}
    (happly : patch.applyTo (.ofLines host.buffer) = .ok written) :
    (Host.apply patch host).result = .ok () ∧
      (Host.apply patch host).host =
        { host with buffer := written.lines, patches := host.patches + 1 } := by
  change (MemoryHost.apply patch host).result = .ok () ∧ (MemoryHost.apply patch host).host = _
  rw [MemoryHost.apply, if_neg (by simp [h.failing]), if_neg (by simp [h.dropsPatches]), happly]
  exact ⟨rfl, rfl⟩

/-- A reliable host saves its buffer as the save finds it. -/
theorem Reliable.save {host : MemoryHost} (h : host.Reliable) :
    (Host.save host).result = .ok () ∧
      (Host.save host).host =
        { host with
          buffer := host.beforeSave.buffer
          saved := host.beforeSave.buffer
          saves := host.saves + 1 } := by
  change (MemoryHost.save host).result = .ok () ∧ (MemoryHost.save host).host = _
  rw [MemoryHost.save, if_neg (by simp [h.failing]), beforeSave_eq]
  simp [h.full]

end MemoryHost

/-! ### Overrides over a reliable host -/

namespace Session

variable {options : SessionOptions} {request : Request} {s : SessionState} {host : MemoryHost}

/-- What a reliable host holds after a patch and a save. -/
def landed (host : MemoryHost) (lines : List String) : MemoryHost :=
  let patched := { host with buffer := lines, patches := host.patches + 1 }
  { patched with
    buffer := patched.beforeSave.buffer
    saved := patched.beforeSave.buffer
    saves := host.saves + 1 }

/-- An accepted override that changes something is written and read back if the host holds what
the session holds. -/
theorem override_run_of_reliable (hreliable : host.Reliable)
    (hdigest : Digest.ofLines host.buffer = s.model.document.digest) {edit : Edit}
    (haccepted : s.model.edit s.effective request = .ok edit) (hchanges : edit.isNoop = false)
    {written : Document}
    (happly : (patchToSend options s.model edit).applyTo (.ofLines host.buffer) = .ok written) :
    ((override options request s).run host).value =
        (⟨(s.library.load (.ofLines (landed host written.lines).buffer)).2,
          (s.library.load (.ofLines (landed host written.lines).buffer)).1, edit.effective,
          edit.changes⟩, .ok ⟨patchToSend options s.model edit, edit.changes⟩) ∧
      ((override options request s).run host).host = landed host written.lines := by
  have hread := hreliable.read
  have hverified : ((verify options s).run host).value = .ok s ∧
      ((verify options s).run host).host = host := by
    rw [verify]
    split
    · have hsame : (Document.ofLines host.buffer).digest = s.model.document.digest := hdigest
      simp only [Dialogue.run, hread, if_pos hsame, MemoryHost.host_read]
      exact ⟨rfl, rfl⟩
    · exact ⟨rfl, rfl⟩
  obtain ⟨happlied, hpatched⟩ := hreliable.apply happly
  have hpatchedReliable : MemoryHost.Reliable
      { host with buffer := written.lines, patches := host.patches + 1 } :=
    ⟨hreliable.failing, hreliable.full, hreliable.dropsPatches⟩
  obtain ⟨hsave, hsaved⟩ := hpatchedReliable.save
  have hlanded : (landed host written.lines).Reliable :=
    ⟨hreliable.failing, hreliable.full, hreliable.dropsPatches⟩
  have hwrites : ¬ edit.isNoop = true := by simp [hchanges]
  rw [override, Dialogue.run_bind, hverified.1, hverified.2]
  simp only [perform, Dialogue.run_logAll, haccepted, if_neg hwrites, writeThrough, Dialogue.run,
    happlied, hpatched, hsave, hsaved]
  have hreread : (Host.read (landed host written.lines)).result =
      .ok (landed host written.lines).buffer := hlanded.read
  rw [landed] at hreread
  simp only [hreread, Dialogue.run_logAll]
  exact ⟨rfl, MemoryHost.host_read _⟩

/-- A state that holds these lines and remembers nothing else. -/
structure HoldsOnly (s : SessionState) (options : LoadOptions) (lines : List String) : Prop where
  model_eq : s.model = Model.ofDocument (.ofLines lines) options
  library_options : s.library.options = options
  findsNothing : s.library.FindsNothing

/-- Where the library finds nothing, the override of a state that holds the lines of a reliable host
can be told from the lines alone. -/
theorem override_run_of_holdsOnly (hreliable : host.Reliable)
    (hminimal : options.minimalPatches = false)
    (hholds : HoldsOnly s options.load host.buffer) {effective changes : Settings}
    {instructions : List LinePatch}
    (hparts : ((Model.ofDocument (.ofLines host.buffer) options.load).edit s.effective request).map
        (fun e => (e.effective, e.changes, e.patch.instructions)) =
      .ok (effective, changes, instructions))
    (hchanges : changes.isEmpty = false) :
    let after := (override options request s).run host
    let lines := Patch.replaceLines host.buffer instructions
    (∃ patch, after.value.2 = .ok ⟨patch, changes⟩) ∧ after.host = landed host lines ∧
      after.value.1.effective = effective ∧
      HoldsOnly after.value.1 options.load (landed host lines).buffer := by
  obtain ⟨edit, hedit, rfl, rfl, rfl⟩ := Model.exists_edit hparts
  have hdocument : s.model.document = .ofLines host.buffer := by
    rw [hholds.model_eq, Model.document_ofDocument]
  have haccepted : s.model.edit s.effective request = .ok edit := by
    rw [hholds.model_eq, hedit]
  have hsent : patchToSend options s.model edit = edit.patch := by
    rw [patchToSend, if_neg (by simp [hminimal])]
  have hdigest : Digest.ofLines host.buffer = s.model.document.digest := by
    rw [hdocument]
    rfl
  have happly := Model.applyTo_of_edit haccepted
  rw [← hsent, hdocument] at happly
  obtain ⟨hvalue, hhost⟩ :=
    override_run_of_reliable hreliable hdigest haccepted hchanges happly
  obtain ⟨hloaded, hnothing, hoptions⟩ := hholds.findsNothing.load
    (.ofLines (landed host (Patch.replaceLines host.buffer edit.patch.instructions)).buffer)
  rw [hsent] at hvalue hhost
  refine ⟨⟨edit.patch, by rw [hvalue]⟩, hhost, by rw [hvalue], ?_⟩
  rw [hvalue]
  refine ⟨?_, hoptions.trans hholds.library_options, hnothing⟩
  rw [SessionState.model, Held.model]
  exact (congrArg Loaded.model hloaded).trans (by rw [hholds.library_options]; rfl)

end Session

end AnnotatedEnv
