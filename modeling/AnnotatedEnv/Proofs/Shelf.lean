/-
Module: AnnotatedEnv.Proofs.Shelf
Purpose: Loading documents with any memory for models gives what reading them anew would give.
Main exports: Shelf, Shelf.Honest, Shelf.limited, Shelf.cache, Reader, Reader.load,
  Library.load_reader, Library.Faithful.loadAll, Reader.loads_as_read_anew
A shelf has a state of its own, which every question may change. A library tells a shelf by what it
finds after what was asked of it, so whatever holds of libraries holds over any honest shelf.
-/
import Mathlib.Data.List.Induction
import AnnotatedEnv.Proofs.Library

namespace AnnotatedEnv

/-! ### Shelves -/

/-- A memory for models with states `κ`, told by what is asked of it. A look-up may change the
state too. -/
structure Shelf (κ : Type) where
  empty : (capacity : Nat) → κ
  find? : Digest → κ → Option Held × κ
  put : Digest → Held → κ → κ

namespace Shelf

variable {κ : Type}

def perform (shelf : Shelf κ) (state : κ) : Operation → κ
  | .find digest => (shelf.find? digest state).2
  | .put digest held => shelf.put digest held state

/-- The state behind some operations on an empty shelf. -/
def after (shelf : Shelf κ) (capacity : Nat) (operations : List Operation) : κ :=
  operations.foldl shelf.perform (shelf.empty capacity)

theorem after_concat (shelf : Shelf κ) (capacity : Nat) (operations : List Operation)
    (operation : Operation) :
    shelf.after capacity (operations ++ [operation]) =
      shelf.perform (shelf.after capacity operations) operation := by
  simp [after]

/-- Whatever is found under a digest was put there before. -/
def Honest (shelf : Shelf κ) : Prop :=
  ∀ capacity operations digest held,
    (shelf.find? digest (shelf.after capacity operations)).1 = some held →
      .put digest held ∈ operations

/-- The shelf that takes models as long as there is room and keeps them for good. -/
def limited : Shelf (Nat × List (Digest × Held)) where
  empty capacity := (capacity, [])
  find? digest state := (Pairs.find? digest state.2, state)
  put digest held state :=
    if state.2.length < state.1 then (state.1, Pairs.insert digest held state.2) else state

/-- The limited shelf is the list that is kept of its history. -/
theorem after_limited (capacity : Nat) (operations : List Operation) :
    limited.after capacity operations =
      (capacity, operations.foldl (Cache.keep capacity) []) := by
  induction operations using List.reverseRecOn with
  | nil => rfl
  | append_singleton operations operation ih =>
      rw [after_concat, ih, List.foldl_append]
      cases operation with
      | find digest => rfl
      | put digest held =>
          simp only [perform, limited, List.foldl_cons, List.foldl_nil, Cache.keep]
          split
          · rfl
          · rfl

/-- It finds nothing that was not put there. -/
theorem limited_honest : limited.Honest := by
  intro capacity operations digest held hfind
  rw [after_limited] at hfind
  exact Cache.limited.honest capacity operations digest held hfind

/-- What an honest shelf finds after what was asked of it. -/
def cache (shelf : Shelf κ) (h : shelf.Honest) : Cache where
  find? capacity asked digest := (shelf.find? digest (shelf.after capacity asked)).1
  honest := h

end Shelf

/-! ### Readers -/

structure Reader (κ : Type) where
  options : LoadOptions
  state : κ
  /-- The number that the next model gets. -/
  next : Nat

/-- Something to load: lines that come without a text, or a document. -/
inductive Load where
  | ofLines (lines : List String)
  | ofDocument (document : Document)
  deriving DecidableEq, Repr

def Load.given : Load → Document
  | ofLines lines => .ofLines lines
  | ofDocument document => document

namespace Reader

variable {κ : Type}

def new (shelf : Shelf κ) (options : LoadOptions) : Reader κ :=
  ⟨options, shelf.empty options.cacheCapacity, 0⟩

/-- Load a document, reusing what the shelf finds for the same lines. -/
def load (shelf : Shelf κ) (reader : Reader κ) (document : Document) : Held × Reader κ :=
  match shelf.find? document.digest reader.state with
  | (some held, state) =>
    if held.model.document = document then (held, { reader with state })
    else (Library.withDocument held document reader.next,
      { reader with state, next := reader.next + 1 })
  | (none, state) =>
    let held : Held := ⟨Loaded.ofDocument document reader.options, reader.next⟩
    (held,
      { reader with
        state := shelf.put document.digest held state
        next := reader.next + 1 })

def loadAll (shelf : Shelf κ) (reader : Reader κ) (loads : List Load) : Reader κ :=
  loads.foldl (fun reader l => (reader.load shelf l.given).2) reader

end Reader

/-! ### Libraries as readers -/

namespace Library

variable {κ : Type} {shelf : Shelf κ} {library : Library} {hhonest : shelf.Honest}

/-- A library as a reader over a shelf of which was asked what was asked of the library. -/
def reader (library : Library) (shelf : Shelf κ) : Reader κ :=
  ⟨library.options, shelf.after library.options.cacheCapacity library.asked, library.next⟩

/-- A library whose cache finds what a shelf finds loads as the reader over that shelf. -/
theorem load_reader (hcache : library.cache = shelf.cache hhonest) (d : Document) :
    (library.reader shelf).load shelf d =
      ((library.load d).1, (library.load d).2.reader shelf) := by
  have hfind : library.find? d.digest =
      (shelf.find? d.digest (shelf.after library.options.cacheCapacity library.asked)).1 := by
    rw [find?, hcache]
    rfl
  have hlooked : (shelf.find? d.digest
        (shelf.after library.options.cacheCapacity library.asked)).2 =
      shelf.after library.options.cacheCapacity (library.asked ++ [.find d.digest]) := by
    rw [Shelf.after_concat]
    rfl
  cases hshelf : shelf.find? d.digest
      (shelf.after library.options.cacheCapacity library.asked) with
  | mk found state =>
      rw [hshelf] at hfind hlooked
      subst hlooked
      cases found with
      | some held =>
          simp only [Reader.load, reader, hshelf, load, hfind]
          split
          · rfl
          · rfl
      | none =>
          simp only [Reader.load, reader, hshelf, load, hfind, Shelf.after_concat _ _ (_ ++ _)]
          rfl

def loadAll (library : Library) (loads : List Load) : Library :=
  loads.foldl (fun library l => (library.load l.given).2) library

/-- Any number of loads goes the same with the shelf as with its cache. -/
theorem loadAll_reader (hcache : library.cache = shelf.cache hhonest) (loads : List Load) :
    (library.loadAll loads).cache = shelf.cache hhonest ∧
      (library.reader shelf).loadAll shelf loads = (library.loadAll loads).reader shelf := by
  induction loads generalizing library with
  | nil => exact ⟨hcache, rfl⟩
  | cons l loads ih =>
      have hnext : (library.load l.given).2.cache = shelf.cache hhonest :=
        (library.cache_load l.given).trans hcache
      obtain ⟨hlater, hreader⟩ := ih hnext
      refine ⟨hlater, ?_⟩
      rw [Reader.loadAll, List.foldl_cons, load_reader hcache]
      exact hreader

/-- Loads of seen documents keep a library faithful. -/
theorem Faithful.loadAll {options : LoadOptions} {seen : List String → Prop}
    (h : library.Faithful options seen) {loads : List Load}
    (hseen : ∀ l ∈ loads, seen l.given.lines) : (library.loadAll loads).Faithful options seen := by
  induction loads generalizing library with
  | nil => exact h
  | cons l loads ih =>
      have hl := hseen l (List.mem_cons_self ..)
      exact ih (h.load hl) fun m hm => hseen m (List.mem_cons_of_mem l hm)

end Library

/-! ### Transparency -/

namespace Reader

variable {κ : Type}

/-- Whatever was loaded before, and whatever the shelf kept of it: loading a document gives the
model and the diagnostics that reading it gives, with this very document in the model, unless two
of the lists of lines share a digest. -/
theorem loads_as_read_anew (shelf : Shelf κ) (hhonest : shelf.Honest) (options : LoadOptions)
    (loads : List Load) (d : Document)
    (hdistinct : NoCollision fun lines => lines = d.lines ∨ ∃ l ∈ loads, l.given.lines = lines) :
    let held := (((new shelf options).loadAll shelf loads).load shelf d).1
    held.model = Model.ofDocument d options ∧
      held.diagnostics = (Loaded.ofDocument d options).diagnostics ∧
      held.model.document = d := by
  let library := Library.new options (shelf.cache hhonest)
  have hopened : library.cache = shelf.cache hhonest := rfl
  obtain ⟨hcache, hreader⟩ := library.loadAll_reader hopened loads
  have hfaithful := (Library.faithful_new options (shelf.cache hhonest)
    fun lines => lines = d.lines ∨ ∃ l ∈ loads, l.given.lines = lines).loadAll
    fun l hl => Or.inr ⟨l, hl, rfl⟩
  intro held
  have hheld : held.loaded = Loaded.ofDocument d options := by
    change (((library.reader shelf).loadAll shelf loads).load shelf d).1.loaded = _
    rw [hreader, Library.load_reader hcache]
    exact hfaithful.loaded_load hdistinct (Or.inl rfl)
  have hmodel : held.model = Model.ofDocument d options := congrArg Loaded.model hheld
  refine ⟨hmodel, congrArg Loaded.diagnostics hheld, ?_⟩
  rw [hmodel]
  exact Model.document_ofDocument d options

/-- A text, its lines, and the same lines with other ends: the third load finds the first. -/
theorem other_line_ends_load_as_read_anew :
    let lf := Document.ofText "// @env-template\nA=1\n"
    let crlf := Document.ofText "// @env-template\r\nA=1"
    let loads := [Load.ofDocument lf, Load.ofLines lf.lines]
    let held := (((new .limited {}).loadAll .limited loads).load .limited crlf).1
    Shelf.limited.Honest ∧
      (NoCollision fun lines => lines = crlf.lines ∨ ∃ l ∈ loads, l.given.lines = lines) ∧
      held.model = Model.ofDocument crlf {} ∧
      held.diagnostics = (Loaded.ofDocument crlf {}).diagnostics ∧
      held.model.document = crlf ∧ crlf.lineEnding = .crlf ∧ crlf.trailingNewline = false := by
  intro lf crlf loads held
  have hsame : crlf.lines = lf.lines := by decide +kernel
  -- Only one list of lines is ever shown, so nothing can share its digest.
  have hdistinct : NoCollision fun lines =>
      lines = crlf.lines ∨ ∃ l ∈ loads, l.given.lines = lines := by
    have honly : ∀ lines, (lines = crlf.lines ∨ ∃ l ∈ loads, l.given.lines = lines) →
        lines = lf.lines := by
      rintro lines (rfl | ⟨l, hl, rfl⟩)
      · exact hsame
      · obtain rfl | rfl : l = .ofDocument lf ∨ l = .ofLines lf.lines := by simpa [loads] using hl
        · rfl
        · rfl
    exact fun lines lines' h h' _ => (honly lines h).trans (honly lines' h').symm
  obtain ⟨hmodel, hdiagnostics, hdocument⟩ :=
    loads_as_read_anew Shelf.limited Shelf.limited_honest {} loads crlf hdistinct
  exact ⟨Shelf.limited_honest, hdistinct, hmodel, hdiagnostics, hdocument, by decide +kernel,
    by decide +kernel⟩

end Reader

end AnnotatedEnv
