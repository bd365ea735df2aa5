/-
Module: AnnotatedEnv.Proofs.Library
Purpose: Loading through a library gives what reading the document anew would give.
Main exports: Loaded.ofDocument_of_lines, NoCollision, Library.Faithful, Library.Faithful.load,
  Library.loaded_of_hit, Library.Faithful.loaded_load, Library.document_load,
  Library.FindsNothing
A library finds models by their digests. It is right about all lines it was shown as long as no two
of them share a digest.
-/
import AnnotatedEnv.Library
import AnnotatedEnv.Proofs.Model

namespace AnnotatedEnv

/-! ### Documents with equal lines -/

/-- How lines end makes no difference to what is read from them. -/
theorem Loaded.ofDocument_of_lines {d e : Document} (h : d.lines = e.lines)
    (options : LoadOptions) :
    Loaded.ofDocument e options =
      { model := { (Loaded.ofDocument d options).model with document := e }
        notices := (Loaded.ofDocument d options).notices } := by
  simp only [Loaded.ofDocument, h]
  split
  · rfl
  · split <;> rfl

/-- No two of the lists of lines share a digest. -/
def NoCollision (seen : List String → Prop) : Prop :=
  ∀ lines lines', seen lines → seen lines' →
    Digest.ofLines lines = Digest.ofLines lines' → lines = lines'

/-- Seen documents with one digest have the same lines. -/
theorem NoCollision.lines_eq {seen : List String → Prop} (h : NoCollision seen) {e d : Document}
    (he : seen e.lines) (hd : seen d.lines) (hdigest : e.digest = d.digest) :
    e.lines = d.lines := by
  apply h e.lines d.lines he hd
  rw [← e.digest_eq, hdigest, d.digest_eq]

/-! ### Libraries -/

namespace Library

variable {library : Library} {options : LoadOptions} {seen : List String → Prop} {d : Document}

/-- Every model that was put on the shelf was read from lines that were shown, and it was put under
their digest. -/
structure Faithful (library : Library) (options : LoadOptions) (seen : List String → Prop) :
    Prop where
  options_eq : library.options = options
  put : ∀ digest held, .put digest held ∈ library.asked →
    ∃ e, seen e.lines ∧ e.digest = digest ∧ held.loaded = Loaded.ofDocument e options

/-- A new library has nothing on its shelf that it could be wrong about. -/
theorem faithful_new (options : LoadOptions) (cache : Cache) (seen : List String → Prop) :
    (new options cache).Faithful options seen :=
  ⟨rfl, fun _ _ hmem => absurd hmem List.not_mem_nil⟩

/-- A load looks up, and puts what it read under the digest of its lines. -/
theorem Faithful.load (h : library.Faithful options seen) (hseen : seen d.lines) :
    (library.load d).2.Faithful options seen := by
  have hlooked : ∀ digest held, .put digest held ∈ library.asked ++ [.find d.digest] →
      ∃ e, seen e.lines ∧ e.digest = digest ∧ held.loaded = Loaded.ofDocument e options :=
    fun digest held hmem => h.put digest held (by simpa using hmem)
  simp only [Library.load]
  split
  · split
    · exact ⟨h.options_eq, hlooked⟩
    · exact ⟨h.options_eq, hlooked⟩
  · refine ⟨h.options_eq, fun digest held hmem => ?_⟩
    rcases List.mem_append.1 hmem with hold | hnew
    · exact hlooked digest held hold
    · cases List.mem_singleton.1 hnew
      exact ⟨d, hseen, rfl, by rw [h.options_eq]⟩

/-- A remembered model of the same lines is handed out as reading the document would give it: as
it is if it has the document's line ends, and with the document put in otherwise. -/
theorem loaded_of_hit {e d : Document} {options : LoadOptions} (hlines : e.lines = d.lines)
    {held : Held} (hheld : held.loaded = Loaded.ofDocument e options) :
    (held.model.document = d → held.loaded = Loaded.ofDocument d options) ∧
      ∀ number, (withDocument held d number).loaded = Loaded.ofDocument d options := by
  refine ⟨fun hsame => ?_, fun number => ?_⟩
  · have hdocument : held.model.document = e := by
      rw [Held.model, hheld]
      exact Model.document_ofDocument e options
    rw [hheld, ← hdocument, hsame]
  · rw [withDocument, hheld]
    exact (Loaded.ofDocument_of_lines hlines options).symm

theorem cache_load (library : Library) (d : Document) :
    (library.load d).2.cache = library.cache := by
  simp only [load]
  split
  · split
    · rfl
    · rfl
  · rfl

/-- What a faithful library finds under the digest of shown lines was read from the same lines. -/
theorem Faithful.hit (h : library.Faithful options seen) (hdistinct : NoCollision seen)
    (hseen : seen d.lines) {held : Held} (hfind : library.find? d.digest = some held) :
    ∃ e : Document, e.lines = d.lines ∧ held.loaded = Loaded.ofDocument e options := by
  obtain ⟨e, hseenE, hdigest, hheld⟩ := h.put _ _ (library.cache.honest _ _ _ _ hfind)
  exact ⟨e, hdistinct.lines_eq hseenE hseen hdigest, hheld⟩

/-- What a faithful library hands out is what reading the document gives. -/
theorem Faithful.loaded_load (h : library.Faithful options seen) (hdistinct : NoCollision seen)
    (hseen : seen d.lines) : (library.load d).1.loaded = Loaded.ofDocument d options := by
  simp only [Library.load]
  split
  · next held hfind =>
    obtain ⟨e, hlines, hheld⟩ := h.hit hdistinct hseen hfind
    split
    · next hsame => exact (loaded_of_hit hlines hheld).1 hsame
    · exact (loaded_of_hit hlines hheld).2 library.next
  · rw [h.options_eq]

/-- Whatever a library remembers, it hands out a model of the document it was given. -/
theorem document_load (library : Library) (d : Document) :
    (library.load d).1.model.document = d := by
  simp only [load]
  split
  · split
    · next hsame => exact hsame
    · rfl
  · exact Model.document_ofDocument d library.options

/-- Loading gives the model that reading gives. -/
theorem Faithful.model_load (h : library.Faithful options seen) (hdistinct : NoCollision seen)
    (hseen : seen d.lines) : (library.load d).1.model = Model.ofDocument d options := by
  rw [Held.model, h.loaded_load hdistinct hseen]
  rfl

/-- From an empty shelf nothing can be found, so the first document is read. -/
theorem loaded_load_new (options : LoadOptions) (cache : Cache) (d : Document) :
    ((new options cache).load d).1.loaded = Loaded.ofDocument d options := by
  simp only [load]
  split
  · next held hfind =>
    exact absurd (cache.honest _ _ _ _ hfind) List.not_mem_nil
  · rfl

/-- A library whose shelf finds nothing, whatever was asked of it. -/
def FindsNothing (library : Library) : Prop :=
  ∀ asked digest, library.cache.find? library.options.cacheCapacity asked digest = none

/-- A shelf without room keeps nothing. -/
theorem findsNothing_new (hroom : options.cacheCapacity = 0) : (new options).FindsNothing := by
  intro asked digest
  have hempty : asked.foldl (Cache.keep 0) [] = [] := by
    induction asked with
    | nil => rfl
    | cons operation asked ih => cases operation <;> exact ih
  simp only [new, Cache.limited, hroom, hempty]
  rfl

/-- Where nothing is found every document is read anew. -/
theorem FindsNothing.load (h : library.FindsNothing) (d : Document) :
    (library.load d).1.loaded = Loaded.ofDocument d library.options ∧
      (library.load d).2.FindsNothing ∧ (library.load d).2.options = library.options := by
  have hfind : library.find? d.digest = none := h library.asked d.digest
  simp only [Library.load, hfind]
  exact ⟨trivial, h, trivial⟩

end Library

end AnnotatedEnv
