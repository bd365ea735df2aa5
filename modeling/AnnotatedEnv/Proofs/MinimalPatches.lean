/-
Module: AnnotatedEnv.Proofs.MinimalPatches
Purpose: Leaving out the instructions that change nothing changes nothing but the patches.
Main exports: Trimmed, Overlap.minimal_patches_in_lock_step
-/
import AnnotatedEnv.Proofs.LockStep

namespace AnnotatedEnv

/-- Answers that are equal but for the instructions of patches that leave their line as it is in
the shown document for which the patch was made. -/
inductive Trimmed (shown : List String → Prop) :
    Except SessionError Answer → Except SessionError Answer → Prop where
  | error (e : SessionError) : Trimmed shown (.error e) (.error e)
  | refreshed (diagnostics : List Diagnostic) :
      Trimmed shown (.ok (.refreshed diagnostics)) (.ok (.refreshed diagnostics))
  | applied {d : Document} (known : shown d.lines) {patch : Patch} (base : patch.base = d.digest)
      (changes : Settings) :
      Trimmed shown (.ok (.applied ⟨patch, changes⟩))
        (.ok (.applied ⟨patch.retainChanged d, changes⟩))

/-- The options that send patches as they were computed. -/
def SessionOptions.full (options : SessionOptions) : SessionOptions :=
  { options with minimalPatches := false }

/-- The options that leave out what changes nothing. -/
def SessionOptions.minimal (options : SessionOptions) : SessionOptions :=
  { options with minimalPatches := true }

/-- Between the full and the minimal options twins differ by instructions that change nothing. -/
theorem Session.Twins.trimmed {options : SessionOptions} {shown : List String → Prop}
    {result result' : Except SessionError Answer}
    (h : Twins options.full options.minimal shown result result') :
    Trimmed shown result result' := by
  cases h with
  | error e => exact .error e
  | refreshed diagnostics => exact .refreshed diagnostics
  | applied known base changes => exact .applied known base changes

namespace Overlap

/-- Tasks alike have returned both or neither, with trimmed answers. -/
theorem LockStep.trimmed {options : SessionOptions} {shown : List String → Prop}
    {o o' : Overlap (Paced MemoryHost)} (h : LockStep options.full options.minimal shown o o')
    (i : Nat) : Option.Rel (Trimmed shown) (o.result? i) (o'.result? i) := by
  have hrel := h.tasks i
  rw [result?, result?]
  generalize o.tasks[i]? = found at hrel ⊢
  generalize o'.tasks[i]? = found' at hrel ⊢
  cases hrel with
  | none => exact .none
  | some halike =>
      cases halike with
      | fresh told => exact .none
      | queued told => exact .none
      | waiting isOverride polls alike => exact .none
      | finished twins => exact .some twins.trimmed

/-- Two sessions that differ in nothing but whether they leave out instructions that change nothing
open alike and are in the same state over the same host at all times, whatever is polled, whatever
fails and whatever others do to the host. Every call answers the same, but for these
instructions. -/
theorem minimal_patches_in_lock_step (options : SessionOptions) (host : MemoryHost)
    (state : SessionState) (delays : List Nat) (calls : List Call) (hs : List Happening)
    (hopen : Opened.OpensAs options.full host state)
    (hdistinct : NoCollision (Shown (overlapping options.full state host delays calls) calls hs)) :
    (∀ cache, Session.start options.minimal cache = Session.start options.full cache) ∧
      ∀ past, past <+: hs →
        let full := (overlapping options.full state host delays calls).course past
        let minimal := (overlapping options.minimal state host delays calls).course past
        let shown := Shown (overlapping options.full state host delays calls) calls hs
        minimal.state = full.state ∧ minimal.host = full.host ∧
          ∀ i, Option.Rel (Trimmed shown) (full.result? i) (minimal.result? i) := by
  refine ⟨fun _ => rfl, fun past hpast => ?_⟩
  have h : LockStep options.full options.minimal _ _ _ :=
    lockStep_course hopen rfl hdistinct hpast
  exact ⟨h.state_eq, h.host_eq, h.trimmed⟩

def settingB (options : SessionOptions) : Overlap (Paced MemoryHost) :=
  let host := MemoryHost.ofLines ["// @env-template", "A=1", "B=2"]
  overlapping options (Session.opened options.load .limited host.buffer) host []
    [.override (.setValue "B" "3")]

/-- The instructions of the patch that a call answers. -/
def instructions? (o : Overlap (Paced MemoryHost)) (i : Nat) : Option (List LinePatch) :=
  match o.result? i with
  | some (.ok (.applied applied)) => some applied.patch.instructions
  | _ => none

/-- Setting one of two keys sends two instructions in full and one at the least, with the same state
and host behind both. -/
theorem settingB_in_lock_step :
    let hs : List Happening := [.poll 0]
    let full := (settingB (SessionOptions.full {})).course hs
    let minimal := (settingB (SessionOptions.minimal {})).course hs
    minimal.state = full.state ∧ minimal.host = full.host ∧
      full.instructions? 0 = some [⟨1, "A=1"⟩, ⟨2, "B=3"⟩] ∧
      minimal.instructions? 0 = some [⟨2, "B=3"⟩] := by
  intro hs full minimal
  have hopen : Opened.OpensAs (SessionOptions.full {})
      (.ofLines ["// @env-template", "A=1", "B=2"]) (Session.opened _ _ _) :=
    Opened.opensAs_opened _ .limited ⟨rfl, rfl, rfl⟩
  have hdistinct : NoCollision
      (Shown (settingB (SessionOptions.full {})) [.override (.setValue "B" "3")] hs) :=
    noCollision_of_shownLines (by decide +kernel)
  obtain ⟨_, hcourse⟩ := minimal_patches_in_lock_step {} _ _ [] _ hs hopen hdistinct
  obtain ⟨hstate, hhost, _⟩ := hcourse hs (List.prefix_refl hs)
  exact ⟨hstate, hhost, by decide +kernel, by decide +kernel⟩

end Overlap

end AnnotatedEnv
