/-
Module: AnnotatedEnv.Proofs.FileHost
Purpose: Files behind a host: what a write does to the disk, and that a session over a file goes as
  over a host in memory.
Main exports: Disk.Rooted, Disk.WritesTo, Disk.Writable, Disk.write_of_read, FileHost.Settled,
  Session.attend, Session.Attended, Session.attended_run, Host.Simulates,
  Dialogue.run_of_simulates, FileHost.Mirrors, FileHost.file_refines_memory
The buffer of a file and the buffer in memory hold the same lines at any time. What differs is what
lasts: a file is only written once a patch has landed, and then with the line ends it was read with.
-/
import AnnotatedEnv.Host.File
import AnnotatedEnv.Proofs.Memory

namespace AnnotatedEnv

/-! ### Files on a disk -/

namespace Disk

variable {disk : Disk} {l : Location} {path : String} {content content' : List UInt8}

/-- The working directory and those around it are not listed as anything else. -/
structure Rooted (disk : Disk) : Prop where
  unlisted : ∀ l, l.isPrefixOf disk.home = true → Pairs.find? l disk.entries = none

theorem rooted_singleton {home : Location} (h : l.isPrefixOf home = false) (entry : DiskEntry) :
    Rooted { home, entries := [(l, entry)] } := by
  refine ⟨fun l' hl' => ?_⟩
  have hne : l ≠ l' := by
    rintro rfl
    exact absurd (hl'.symm.trans h) (by simp)
  simp [Pairs.find?, hne]

/-- A file does not stand in the place of the working directory or of one around it. -/
theorem Rooted.not_prefix_of_file (h : disk.Rooted) (hfile : disk.find? l = some (.file content)) :
    l.isPrefixOf disk.home = false := by
  cases hprefix : l.isPrefixOf disk.home with
  | false => rfl
  | true =>
      rw [find?, h.unlisted l hprefix, standing?, hprefix] at hfile
      exact absurd hfile (by simp)

theorem home_set (disk : Disk) (l : Location) (entry : DiskEntry) :
    (disk.set l entry).home = disk.home := by
  rw [set]
  split <;> rfl

/-- Listing an entry leaves the working directory where it is. -/
theorem Rooted.set (h : disk.Rooted) (l : Location) (entry : DiskEntry) :
    (disk.set l entry).Rooted := by
  refine ⟨fun l' hl' => ?_⟩
  rw [home_set] at hl'
  rw [Disk.set]
  split
  · exact h.unlisted l' hl'
  · next hl =>
    have hne : l' ≠ l := fun heq => hl (heq ▸ hl')
    simp only [Pairs.find?_insert, if_neg hne]
    exact h.unlisted l' hl'

theorem find?_set (hfree : l.isPrefixOf disk.home = false) (entry : DiskEntry) (l' : Location) :
    (disk.set l entry).find? l' = if l' = l then some entry else disk.find? l' := by
  rw [set, if_neg (by simp [hfree])]
  simp only [find?, Pairs.find?_insert, standing?]
  split <;> rfl

/-- A path is followed past the content of files, so no path leads elsewhere once a file has other
content. -/
theorem follow_set_file (hfile : disk.find? l = some (.file content))
    (hfree : l.isPrefixOf disk.home = false) (from_ : Location) (parts : List String) :
    (disk.set l (.file content')).follow from_ parts = disk.follow from_ parts := by
  induction parts generalizing from_ with
  | nil => rfl
  | cons part rest ih =>
      simp only [follow, ih, find?_set hfree]
      by_cases hplace : Location.child from_ part = l
      · rw [hplace, if_pos rfl, hfile]
      · rw [if_neg hplace]

/-- Paths lead where they led before a file got other content. -/
theorem locate_set_file (hfile : disk.find? l = some (.file content))
    (hfree : l.isPrefixOf disk.home = false) (path : String) :
    (disk.set l (.file content')).locate path = disk.locate path := by
  simp only [locate, start, home_set, follow_set_file hfile hfree]

/-- A path that can be read leads to a file with that content. -/
theorem read_eq_ok_iff :
    disk.read path = .ok content ↔
      ∃ l, disk.locate path = .ok l ∧ disk.find? l = some (.file content) := by
  rw [read]
  cases disk.locate path with
  | error e => simp
  | ok l =>
      cases hfind : disk.find? l with
      | none => simp [hfind]
      | some entry => cases entry <;> simp [hfind]

/-- One disk is the other with this content in the file that the path leads to. -/
structure WritesTo (disk : Disk) (path : String) (content : List UInt8) (disk' : Disk) : Prop where
  rooted : disk'.Rooted
  read : disk'.read path = .ok content
  /-- Every path leads where it led. -/
  locate : ∀ other, disk'.locate other = disk.locate other
  /-- Nothing else changes. -/
  find? : ∀ l, disk.locate path ≠ .ok l → disk'.find? l = disk.find? l
  refusals : disk'.refusals = disk.refusals

/-- The file that the path leads to cannot be written for this reason. -/
def Refuses (disk : Disk) (path : String) (e : IoError) : Prop :=
  ∃ l, disk.locate path = .ok l ∧ Pairs.find? l disk.refusals = some e

/-- Nothing keeps the file that the path leads to from being written. -/
def Writable (disk : Disk) (path : String) : Prop := ∀ e, ¬ disk.Refuses path e

theorem writable_of_refusals_nil (h : disk.refusals = []) (path : String) :
    disk.Writable path := by
  rintro e ⟨l, _, hrefused⟩
  rw [h] at hrefused
  exact absurd hrefused (by simp [Pairs.find?])

/-- A file that was written can be written again. -/
theorem WritesTo.writable {disk' : Disk} (h : disk.WritesTo path content disk')
    (hwritable : disk.Writable path) : disk'.Writable path := by
  rintro e ⟨l, hlocate, hrefused⟩
  rw [h.locate] at hlocate
  rw [h.refusals] at hrefused
  exact hwritable e ⟨l, hlocate, hrefused⟩

theorem refusals_set (disk : Disk) (l : Location) (entry : DiskEntry) :
    (disk.set l entry).refusals = disk.refusals := by
  rw [set]
  split <;> rfl

/-- A file that can be read is written, unless there is a reason that keeps it from that. -/
theorem write_of_read (hrooted : disk.Rooted) (hread : disk.read path = .ok content)
    (content' : List UInt8) :
    (∃ e, disk.Refuses path e ∧ disk.write path content' = .error e) ∨
      disk.Writable path ∧
        ∃ disk', disk.write path content' = .ok disk' ∧ disk.WritesTo path content' disk' := by
  obtain ⟨l, hlocate, hfile⟩ := read_eq_ok_iff.1 hread
  cases hrefusal : Pairs.find? l disk.refusals with
  | some e =>
      refine Or.inl ⟨e, ⟨l, hlocate, hrefusal⟩, ?_⟩
      simp only [write, hlocate, hfile, hrefusal]
  | none =>
      have hfree := hrooted.not_prefix_of_file hfile
      have hlocates : ∀ other, (disk.set l (.file content')).locate other = disk.locate other :=
        locate_set_file hfile hfree
      refine Or.inr ⟨?_, disk.set l (.file content'), ?_, hrooted.set l _, ?_, hlocates,
        fun l' hl' => ?_, refusals_set disk l _⟩
      · rintro e ⟨l', hlocate', hrefused⟩
        cases hlocate.symm.trans hlocate'
        exact absurd (hrefusal.symm.trans hrefused) (by simp)
      · simp only [write, hlocate, hfile, hrefusal]
      · refine read_eq_ok_iff.2 ⟨l, (hlocates path).trans hlocate, ?_⟩
        rw [find?_set hfree, if_pos rfl]
      · have hne : l' ≠ l := fun heq => hl' (heq ▸ hlocate)
        rw [find?_set hfree, if_neg hne]

end Disk

/-! ### The buffer of a file -/

namespace FileHost

theorem host_read (host : FileHost) : (Host.read host).host = host := rfl

theorem result_read (host : FileHost) : (Host.read host).result = .ok host.document.lines := rfl

/-- A patch is refused as the buffer refuses it and changes nothing, or it lands in the buffer. -/
theorem apply_cases (patch : Patch) (host : FileHost) :
    (∃ e, patch.applyTo host.document = .error e ∧
        (Host.apply patch host).result = .error (.patch e) ∧
        (Host.apply patch host).host = host) ∨
      ∃ written, patch.applyTo host.document = .ok written ∧
        (Host.apply patch host).result = .ok () ∧
        (Host.apply patch host).host = { host with document := written, dirty := true } := by
  change (∃ e, _ ∧ (FileHost.apply patch host).result = _ ∧ (FileHost.apply patch host).host = _) ∨
    ∃ written, _ ∧ (FileHost.apply patch host).result = _ ∧ (FileHost.apply patch host).host = _
  rw [FileHost.apply]
  cases patch.applyTo host.document with
  | error e => exact Or.inl ⟨e, rfl, rfl, rfl⟩
  | ok written => exact Or.inr ⟨written, rfl, rfl, rfl⟩

/-- Without a patch that waits there is nothing to save. -/
theorem save_of_clean {host : FileHost} (h : host.dirty = false) :
    Host.save host = { result := .ok (), host } := by
  change FileHost.save host = _
  rw [FileHost.save, if_neg (by simp [h])]

/-- A save of a file that is there puts the text of the buffer into it, or it is refused and changes
nothing. -/
theorem save_of_dirty {host : FileHost} (h : host.dirty = true) (hrooted : host.disk.Rooted)
    {content : List UInt8} (hread : host.disk.read host.path = .ok content) :
    (∃ e, host.disk.Refuses host.path e ∧
        Host.save host = { result := .error (.io e), host }) ∨
      host.disk.Writable host.path ∧
        ∃ disk', host.disk.WritesTo host.path (Text.utf8 host.document.toText) disk' ∧
          (Host.save host).result = .ok () ∧
          (Host.save host).host = { host with disk := disk', dirty := false } := by
  change (∃ e, _ ∧ FileHost.save host = _) ∨ _ ∧ ∃ disk', _ ∧
    (FileHost.save host).result = .ok () ∧ (FileHost.save host).host = _
  rw [FileHost.save, if_pos h]
  rcases Disk.write_of_read hrooted hread (Text.utf8 host.document.toText) with
    ⟨e, hrefuses, hwrite⟩ | ⟨hwritable, disk', hwrite, hwrites⟩
  · rw [hwrite]
    exact Or.inl ⟨e, hrefuses, rfl⟩
  · rw [hwrite]
    exact Or.inr ⟨hwritable, disk', hwrites, rfl, rfl⟩

/-- The file is there, and no patch waits to be saved. -/
structure Settled (host : FileHost) (content : List UInt8) : Prop where
  rooted : host.disk.Rooted
  read : host.disk.read host.path = .ok content
  clean : host.dirty = false

/-- Opening a file that holds a text. -/
theorem openFile_of_read {disk : Disk} {path text : String}
    (hread : disk.read path = .ok (Text.utf8 text)) :
    openFile disk path = .ok { disk, path, document := .ofText text } := by
  simp only [openFile, Disk.readText, hread, Text.ofUtf8?_utf8]

end FileHost

/-! ### Requests on a file -/

namespace FileHost

def model (host : FileHost) (options : LoadOptions) : Model :=
  Model.ofDocument (.ofLines host.document.lines) options

/-- The buffer with the lines of a patch replaced. -/
def patched (host : FileHost) (patch : Patch) : Document :=
  host.document.withLines (Patch.replaceLines host.document.lines patch.instructions)

end FileHost

namespace Session

variable {options : SessionOptions} {cache : Cache} {request : Request}

/-- Open a session and carry out one request: the state behind the opening, the state behind the
request, and the answer. -/
def attend (options : SessionOptions) (cache : Cache) (request : Request) :
    Dialogue (Except HostError (SessionState × SessionState × Except SessionError Applied)) :=
  (start options cache).bind fun
    | .error e => .done (.error e)
    | .ok s => (override options request s).bind fun (s', result) => .done (.ok (s, s', result))

/-- On a host that can be read the request goes to the session that its lines open. -/
theorem attend_run {σ : Type} [Host σ] (options : SessionOptions) (cache : Cache)
    (request : Request) (host : σ) {lines : List String}
    (hread : (Host.read host).result = .ok lines) :
    let s := opened options.load cache lines
    let done := (override options request s).run (Host.read host).host
    ((attend options cache request).run host).value = .ok (s, done.value.1, done.value.2) ∧
      ((attend options cache request).run host).host = done.host := by
  obtain ⟨hhost, hvalue⟩ := start_run options cache host
  rw [hread] at hvalue
  rw [attend, Dialogue.run_bind, hvalue, hhost]
  simp only [Except.map, Dialogue.run_bind]
  exact ⟨rfl, rfl⟩

/-- Nothing was put on the shelf before, so what is opened is read. -/
theorem model_opened (options : LoadOptions) (cache : Cache) (lines : List String) :
    (opened options cache lines).model = Model.ofDocument (.ofLines lines) options := by
  have hloaded := Library.loaded_load_new options cache (.ofLines lines)
  exact congrArg Loaded.model hloaded

theorem effective_opened (options : LoadOptions) (cache : Cache) (lines : List String) :
    (opened options cache lines).effective = (opened options cache lines).model.baseline := rfl

/-- A session that was opened on a file finds it unchanged. -/
theorem Verified.of_opened {host h : FileHost} {v : SessionState}
    (hverified : Verified options (opened options.load cache host.document.lines) host v h) :
    v = opened options.load cache host.document.lines ∧ host = h := by
  cases hverified with
  | trusted off => exact ⟨rfl, rfl⟩
  | same on read digest_eq => exact ⟨rfl, rfl⟩
  | changed on read digest_ne =>
      rw [FileHost.result_read] at read
      cases read
      refine absurd ?_ digest_ne
      rw [model_opened, Model.document_ofDocument]
      rfl

/-- Whatever patch of an edit is sent, it applies to the file that the edit was made for. -/
theorem applyTo_patchToSend_file {host : FileHost} {edit : Edit}
    (haccepted : (host.model options.load).edit (host.model options.load).baseline request =
      .ok edit) :
    (patchToSend options (host.model options.load) edit).applyTo host.document =
      .ok (host.patched (patchToSend options (host.model options.load) edit)) := by
  have hdocument : (host.model options.load).document = .ofLines host.document.lines :=
    Model.document_ofDocument _ _
  have hbase := Model.base_of_edit haccepted
  have hrange := (Model.numbered_of_edit haccepted).2
  rw [hdocument] at hbase hrange
  rw [Patch.applyTo_eq_ok_iff, patchToSend]
  split
  · exact ⟨hbase.trans host.document.digest_eq.symm,
      fun i hi => hrange i (List.mem_of_mem_filter hi), rfl⟩
  · exact ⟨hbase.trans host.document.digest_eq.symm, hrange, rfl⟩

/-- What a request does to a file, and what is answered: nothing happens unless it changes
something, and then the text of the patched buffer becomes the content of the file. A file that
cannot be written stays as it is. -/
inductive Attended (options : SessionOptions) (request : Request) (host : FileHost) :
    FileHost → Except SessionError Applied → Prop where
  | refused {e : EditError}
      (refused : (host.model options.load).edit (host.model options.load).baseline request =
        .error e) :
      Attended options request host host (.error (.ofEdit e))
  | unchanged {edit : Edit}
      (accepted : (host.model options.load).edit (host.model options.load).baseline request =
        .ok edit)
      (noop : edit.isNoop = true) :
      Attended options request host host (.ok ⟨edit.patch, .empty⟩)
  | unsaved {edit : Edit} {e : IoError}
      (accepted : (host.model options.load).edit (host.model options.load).baseline request =
        .ok edit)
      (changes : edit.isNoop = false) (refuses : host.disk.Refuses host.path e) :
      Attended options request host
        { host with
          document := host.patched (patchToSend options (host.model options.load) edit)
          dirty := true }
        (.error (.host (.io e)))
  | written {edit : Edit} {disk' : Disk}
      (accepted : (host.model options.load).edit (host.model options.load).baseline request =
        .ok edit)
      (changes : edit.isNoop = false) (writable : host.disk.Writable host.path)
      (writes : host.disk.WritesTo host.path
        (Text.utf8 (host.patched (patchToSend options (host.model options.load) edit)).toText)
        disk') :
      Attended options request host
        { host with
          disk := disk'
          document := host.patched (patchToSend options (host.model options.load) edit)
          dirty := false }
        (.ok ⟨patchToSend options (host.model options.load) edit, edit.changes⟩)

/-- The buffer behind the patch of an accepted edit, which waits to be saved. -/
def landedIn (options : SessionOptions) (host : FileHost) (edit : Edit) : FileHost :=
  { host with
    document := host.patched (patchToSend options (host.model options.load) edit)
    dirty := true }

/-- The patch of an accepted edit lands. -/
theorem apply_of_edit {host : FileHost} {edit : Edit}
    (haccepted : (host.model options.load).edit (host.model options.load).baseline request =
      .ok edit) :
    Host.apply (patchToSend options (host.model options.load) edit) host =
      { result := .ok (), host := landedIn options host edit } := by
  change FileHost.apply _ host = _
  rw [FileHost.apply, applyTo_patchToSend_file haccepted]
  rfl

/-- An override on the session that the file opened ends as the file allows. -/
theorem Overridden.attended {host host' : FileHost} {s' : SessionState}
    {result : Except SessionError Applied} {content : List UInt8}
    (hend : Overridden options request (opened options.load cache host.document.lines) host s'
      host' result)
    (hsettled : host.Settled content) : Attended options request host host' result := by
  have hmodel : (opened options.load cache host.document.lines).model =
      host.model options.load := model_opened options.load cache host.document.lines
  cases hend with
  | unverified on read => exact absurd read (by rw [FileHost.result_read]; simp)
  | refused verified refused =>
      obtain ⟨rfl, rfl⟩ := verified.of_opened
      rw [effective_opened, hmodel] at refused
      exact .refused refused
  | unchanged verified accepted noop =>
      obtain ⟨rfl, rfl⟩ := verified.of_opened
      rw [effective_opened, hmodel] at accepted
      exact .unchanged accepted noop
  | unapplied verified accepted changes apply =>
      obtain ⟨rfl, rfl⟩ := verified.of_opened
      rw [effective_opened, hmodel] at accepted
      rw [hmodel] at apply
      exact absurd (apply.symm.trans (congrArg Reply.result (apply_of_edit accepted))) (by simp)
  | @unsaved v h h' edit e verified accepted changes apply applied save =>
      obtain ⟨rfl, rfl⟩ := verified.of_opened
      rw [effective_opened, hmodel] at accepted
      rw [hmodel, apply_of_edit accepted] at applied
      subst applied
      have hdirty : (landedIn options host edit).dirty = true := rfl
      rcases FileHost.save_of_dirty hdirty hsettled.rooted hsettled.read with
        ⟨e', hrefuses, hsave⟩ | ⟨_, _, _, hsave, _⟩
      · rw [hsave] at save ⊢
        cases save
        exact .unsaved accepted changes hrefuses
      · exact absurd (save.symm.trans hsave) (by simp)
  | unread verified accepted changes apply applied save saved read =>
      exact absurd read (by rw [FileHost.result_read]; simp)
  | @written v h h' h'' edit lines verified accepted changes apply applied save saved read =>
      obtain ⟨rfl, rfl⟩ := verified.of_opened
      rw [effective_opened, hmodel] at accepted
      rw [hmodel, apply_of_edit accepted] at applied
      subst applied
      have hdirty : (landedIn options host edit).dirty = true := rfl
      rcases FileHost.save_of_dirty hdirty hsettled.rooted hsettled.read with
        ⟨_, _, hsave⟩ | ⟨hwritable, disk', hwrites, _, hsaved⟩
      · rw [hsave] at save
        exact absurd save (by simp)
      · rw [FileHost.host_read, saved, hsaved, hmodel]
        exact .written accepted changes hwritable hwrites

/-- A session that is opened on a file answers the request, and ends at one of these points. -/
theorem attended_run (options : SessionOptions) (cache : Cache) (request : Request)
    {host : FileHost} {content : List UInt8} (hsettled : host.Settled content) :
    ∃ state result,
      ((attend options cache request).run host).value =
          .ok (opened options.load cache host.document.lines, state, result) ∧
        Attended options request host ((attend options cache request).run host).host result := by
  obtain ⟨hvalue, hhost⟩ := attend_run options cache request host (FileHost.result_read host)
  refine ⟨_, _, hvalue, ?_⟩
  rw [hhost]
  exact (overridden_run options request _ host).attended hsettled

/-- No patch is left unsaved in a file that can be written. -/
theorem Attended.clean {host host' : FileHost} {result : Except SessionError Applied}
    (h : Attended options request host host' result) (hclean : host.dirty = false)
    (hwritable : host.disk.Writable host.path) : host'.dirty = false := by
  cases h with
  | refused refused => exact hclean
  | unchanged accepted noop => exact hclean
  | unsaved accepted changes refuses => exact absurd refuses (hwritable _)
  | written accepted changes writable writes => rfl

end Session

/-! ### Hosts that answer alike -/

section Simulation

variable {σ τ : Type} [Host σ] [Host τ]

/-- Two hosts that are related answer every call alike and stay related. -/
structure Host.Simulates (R : σ → τ → Prop) : Prop where
  read : ∀ {a b}, R a b →
    (Host.read a).result = (Host.read b).result ∧ R (Host.read a).host (Host.read b).host
  apply : ∀ {a b}, R a b → ∀ patch,
    (Host.apply patch a).result = (Host.apply patch b).result ∧
      R (Host.apply patch a).host (Host.apply patch b).host
  save : ∀ {a b}, R a b →
    (Host.save a).result = (Host.save b).result ∧ R (Host.save a).host (Host.save b).host

/-- A dialogue ends alike over hosts that answer alike, and leaves them related. -/
theorem Dialogue.run_of_simulates {α : Type} {R : σ → τ → Prop} (hR : Host.Simulates R)
    (d : Dialogue α) {a : σ} {b : τ} (hab : R a b) :
    (d.run a).value = (d.run b).value ∧ R (d.run a).host (d.run b).host := by
  induction d generalizing a b with
  | done x => exact ⟨rfl, hab⟩
  | read next ih =>
      obtain ⟨hresult, hhost⟩ := hR.read hab
      have hnext := ih (Host.read a).result hhost
      rw [hresult] at hnext
      simpa only [run, Outcome.after, hresult] using hnext
  | apply patch next ih =>
      obtain ⟨hresult, hhost⟩ := hR.apply hab patch
      have hnext := ih (Host.apply patch a).result hhost
      rw [hresult] at hnext
      simpa only [run, Outcome.after, hresult] using hnext
  | save next ih =>
      obtain ⟨hresult, hhost⟩ := hR.save hab
      have hnext := ih (Host.save a).result hhost
      rw [hresult] at hnext
      simpa only [run, Outcome.after, hresult] using hnext
  | log event next ih => exact ih hab

end Simulation

/-! ### Files and hosts in memory -/

namespace FileHost

/-- A file host that was opened on a file with this text, and a host in memory that was started
with its lines, after the same calls. -/
structure Mirrors (path text : String) (file : FileHost) (memory : MemoryHost) : Prop where
  path_eq : file.path = path
  rooted : file.disk.Rooted
  writable : file.disk.Writable path
  present : ∃ content, file.disk.read path = .ok content
  reliable : memory.Reliable
  quiet : memory.onSave = none
  document_eq : file.document = (Document.ofText text).withLines memory.buffer
  /-- Without a patch that waits, the saved lines are those of the buffer. -/
  saved : file.dirty = false → memory.saved = memory.buffer
  /-- As long as no patch has landed the file is as it was. -/
  untouched : memory.patches = 0 → file.dirty = false ∧ file.disk.read path = .ok (Text.utf8 text)
  /-- Afterwards it has the saved lines, ended as they were read. -/
  stored : memory.patches ≠ 0 → file.dirty = false →
    file.disk.read path =
      .ok (Text.utf8 ((Document.ofText text).withLines memory.saved).toText)

/-- A file and its lines in memory mirror each other when both are opened. -/
theorem mirrors_open {disk : Disk} (hrooted : disk.Rooted) {path text : String}
    (hwritable : disk.Writable path) (hholds : disk.read path = .ok (Text.utf8 text)) :
    Mirrors path text { disk, path, document := .ofText text }
      (.ofLines (Document.ofText text).lines) where
  path_eq := rfl
  rooted := hrooted
  writable := hwritable
  present := ⟨_, hholds⟩
  reliable := ⟨rfl, rfl, rfl⟩
  quiet := rfl
  document_eq := rfl
  saved _ := rfl
  untouched _ := ⟨rfl, hholds⟩
  stored hne := absurd rfl hne

variable {path text : String} {file : FileHost} {memory : MemoryHost}

/-- Both hand out the same lines. -/
theorem Mirrors.read (h : Mirrors path text file memory) :
    (Host.read file).result = (Host.read memory).result ∧
      Mirrors path text (Host.read file).host (Host.read memory).host := by
  rw [MemoryHost.host_read, h.reliable.read, result_read, h.document_eq]
  exact ⟨rfl, h⟩

/-- Both take the same patches and refuse the same. -/
theorem Mirrors.apply (h : Mirrors path text file memory) (patch : Patch) :
    (Host.apply patch file).result = (Host.apply patch memory).result ∧
      Mirrors path text (Host.apply patch file).host (Host.apply patch memory).host := by
  have happly := patch.applyTo_withLines (Document.ofText text) memory.buffer
  rw [← h.document_eq] at happly
  cases hmemory : patch.applyTo (.ofLines memory.buffer) with
  | error e =>
      rw [hmemory] at happly
      have hrefused : Host.apply patch memory =
          { result := .error (.patch e), host := memory } := by
        change MemoryHost.apply patch memory = _
        rw [MemoryHost.apply, if_neg (by simp [h.reliable.failing]),
          if_neg (by simp [h.reliable.dropsPatches]), hmemory]
      rcases apply_cases patch file with ⟨e', hfile, hresult, hhost⟩ | ⟨_, hfile, _, _⟩
      · rw [happly] at hfile
        cases hfile
        rw [hresult, hhost, hrefused]
        exact ⟨rfl, h⟩
      · rw [happly] at hfile
        exact absurd hfile (by simp [Except.map])
  | ok written =>
      rw [hmemory] at happly
      obtain ⟨hresult', hhost'⟩ := h.reliable.apply hmemory
      rcases apply_cases patch file with ⟨_, hfile, _, _⟩ | ⟨document, hfile, hresult, hhost⟩
      · rw [happly] at hfile
        exact absurd hfile (by simp [Except.map])
      · rw [happly] at hfile
        cases hfile
        rw [hresult, hhost, hresult', hhost']
        exact ⟨rfl,
          { path_eq := h.path_eq
            rooted := h.rooted
            writable := h.writable
            present := h.present
            reliable := ⟨h.reliable.failing, h.reliable.full, h.reliable.dropsPatches⟩
            quiet := h.quiet
            document_eq := rfl
            saved := fun hclean => absurd hclean (by simp)
            untouched := fun hnone => absurd hnone (Nat.succ_ne_zero _)
            stored := fun _ hclean => absurd hclean (by simp) }⟩

/-- Both save, and then the file has the saved lines. -/
theorem Mirrors.save (h : Mirrors path text file memory) :
    (Host.save file).result = (Host.save memory).result ∧
      Mirrors path text (Host.save file).host (Host.save memory).host := by
  obtain ⟨hresult, hhost⟩ := h.reliable.save
  have hbuffer : memory.beforeSave.buffer = memory.buffer := by
    rw [MemoryHost.beforeSave, h.quiet]
  rw [hresult, hhost, hbuffer]
  have hreliable : MemoryHost.Reliable
      { memory with saved := memory.buffer, saves := memory.saves + 1 } :=
    ⟨h.reliable.failing, h.reliable.full, h.reliable.dropsPatches⟩
  cases hdirty : file.dirty with
  | false =>
      rw [save_of_clean hdirty]
      exact ⟨rfl,
        { path_eq := h.path_eq
          rooted := h.rooted
          writable := h.writable
          present := h.present
          reliable := hreliable
          quiet := h.quiet
          document_eq := h.document_eq
          saved := fun _ => rfl
          untouched := h.untouched
          stored := fun hpatched hclean => by
            rw [h.stored hpatched hclean, h.saved hclean] }⟩
  | true =>
      obtain ⟨content, hread⟩ := h.present
      rw [← h.path_eq] at hread
      obtain ⟨e, hrefuses, _⟩ | ⟨hwritable, disk', hwrites, hsaves, hsaved⟩ :=
        save_of_dirty hdirty h.rooted hread
      · rw [h.path_eq] at hrefuses
        exact absurd hrefuses (h.writable e)
      have hstill := hwrites.writable hwritable
      rw [h.path_eq] at hstill
      have hholds := hwrites.read
      rw [h.path_eq, h.document_eq] at hholds
      rw [hsaves, hsaved]
      exact ⟨rfl,
        { path_eq := h.path_eq
          rooted := hwrites.rooted
          writable := hstill
          present := ⟨_, hholds⟩
          reliable := hreliable
          quiet := h.quiet
          document_eq := h.document_eq
          saved := fun _ => rfl
          untouched := fun hnone => by
            have hclean := (h.untouched hnone).1
            rw [hdirty] at hclean
            exact absurd hclean (by simp)
          stored := fun _ _ => hholds }⟩

/-- So a session cannot tell them apart. -/
theorem simulates_memory (path text : String) : Host.Simulates (Mirrors path text) where
  read h := h.read
  apply h := h.apply
  save h := h.save

end FileHost

open Session in
/-- A session over a file that holds a text and can be written opens, answers and goes on as one
over a host in memory with the lines of the text. Behind it the file holds the text itself if no
patch has landed, and the lines that the host in memory saved, with the line ends of the text, if
one has. -/
theorem FileHost.file_refines_memory {disk : Disk} (hrooted : disk.Rooted) {path text : String}
    (hwritable : disk.Writable path) (hholds : disk.read path = .ok (Text.utf8 text))
    (options : SessionOptions) (cache : Cache) (request : Request) :
    ∃ file, FileHost.openFile disk path = .ok file ∧
      let onFile := (attend options cache request).run file
      let inMemory := (attend options cache request).run
        (MemoryHost.ofLines (Document.ofText text).lines)
      (∃ opened state result, onFile.value = .ok (opened, state, result) ∧
        inMemory.value = .ok (opened, state, result)) ∧
      onFile.host.disk.read path =
        .ok (Text.utf8
          (if inMemory.host.patches = 0 then text
          else ((Document.ofText text).withLines inMemory.host.saved).toText)) := by
  refine ⟨_, openFile_of_read hholds, ?_⟩
  intro onFile inMemory
  have hsettled : Settled { disk, path, document := .ofText text } (Text.utf8 text) :=
    ⟨hrooted, hholds, rfl⟩
  obtain ⟨hvalue, hmirrors⟩ := Dialogue.run_of_simulates (simulates_memory path text)
    (attend options cache request) (mirrors_open hrooted hwritable hholds)
  obtain ⟨state, result, hanswer, hattended⟩ := attended_run options cache request hsettled
  refine ⟨⟨_, state, result, hanswer, hvalue.symm.trans hanswer⟩, ?_⟩
  split
  · next hnone => exact (hmirrors.untouched hnone).2
  · next hpatched =>
    exact hmirrors.stored hpatched (hattended.clean hsettled.clean hwritable)

open Session in
/-- A file with line ends of both kinds and a stray carriage return at its end. -/
theorem FileHost.mixed_file_refines_memory :
    let text := "// @env-template\r\nA=1\nB=2\r"
    let disk : Disk := { home := ["w"], entries := [(["w", ".env"], .file (Text.utf8 text))] }
    disk.Rooted ∧ disk.Writable ".env" ∧ disk.read ".env" = .ok (Text.utf8 text) ∧
      ∃ file, FileHost.openFile disk ".env" = .ok file ∧
        let onFile := (attend {} .limited (.setValue "A" "2")).run file
        let inMemory := (attend {} .limited (.setValue "A" "2")).run
          (MemoryHost.ofLines (Document.ofText text).lines)
        (∃ opened state result, onFile.value = .ok (opened, state, result) ∧
          inMemory.value = .ok (opened, state, result)) ∧
        onFile.host.disk.read ".env" =
          .ok (Text.utf8
            (if inMemory.host.patches = 0 then text
            else ((Document.ofText text).withLines inMemory.host.saved).toText)) := by
  intro text disk
  have hrooted : disk.Rooted := Disk.rooted_singleton (by decide) _
  have hwritable : disk.Writable ".env" := Disk.writable_of_refusals_nil rfl ".env"
  have hholds : disk.read ".env" = .ok (Text.utf8 text) := rfl
  exact ⟨hrooted, hwritable, hholds,
    file_refines_memory hrooted hwritable hholds {} .limited (.setValue "A" "2")⟩

end AnnotatedEnv
