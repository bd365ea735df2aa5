/-
Module: AnnotatedEnv.Library
Purpose: Loading documents with a memory for the models that were read before.
Main exports: Held, Shelf.Operation, Cache, Cache.limited, Library, Library.new, Library.load
A document is remembered under its digest. Loading the same lines again gives the model that was
read first, with the line ends of the document at hand, as long as the memory has it. What a memory
keeps and for how long is its own affair.
-/
import AnnotatedEnv.WriteBack

namespace AnnotatedEnv

/-- A loaded document as a library hands it out. -/
structure Held where
  loaded : Loaded
  /-- The number of the model: two holders of one number share one model. -/
  number : Nat
  deriving DecidableEq, Repr

def Held.model (held : Held) : Model := held.loaded.model

/-- The diagnostics in the order of their lines. -/
def Held.diagnostics (held : Held) : List Diagnostic := held.loaded.diagnostics

/-! ### Memories for models -/

/-- What may be asked of a memory for models. -/
inductive Shelf.Operation where
  | find (digest : Digest)
  | put (digest : Digest) (held : Held)
  deriving DecidableEq, Repr

/-- A cache of models, told by what it finds after what was asked of it. It may count what it is
asked for, and it may drop or refuse whatever it likes at any time, but it makes nothing up. -/
structure Cache where
  find? : (capacity : Nat) → (asked : List Shelf.Operation) → Digest → Option Held
  /-- Whatever is found under a digest was put there before. -/
  honest : ∀ capacity asked digest held,
    find? capacity asked digest = some held → .put digest held ∈ asked

namespace Cache

/-- Take a model as long as there is room. -/
def keep (capacity : Nat) (shelf : List (Digest × Held)) : Shelf.Operation → List (Digest × Held)
  | .find _ => shelf
  | .put digest held =>
    if shelf.length < capacity then Pairs.insert digest held shelf else shelf

/-- What a shelf holds after some operations was on it before or was put there by one of them. -/
theorem put_mem_of_mem_keep {capacity : Nat} {shelf : List (Digest × Held)}
    {asked : List Shelf.Operation} {digest : Digest} {held : Held}
    (h : (digest, held) ∈ asked.foldl (keep capacity) shelf) :
    (digest, held) ∈ shelf ∨ .put digest held ∈ asked := by
  induction asked generalizing shelf with
  | nil => exact Or.inl h
  | cons operation asked ih =>
    rcases ih h with hkept | hlater
    · cases operation with
      | find sought => exact Or.inl hkept
      | put known model =>
        simp only [keep] at hkept
        split at hkept
        · rcases Pairs.mem_insert hkept with heq | hmem
          · cases heq
            exact Or.inr (List.mem_cons_self ..)
          · exact Or.inl hmem
        · exact Or.inl hkept
    · exact Or.inr (List.mem_cons_of_mem _ hlater)

/-- The cache that takes models as long as there is room and keeps them for good. -/
def limited : Cache where
  find? capacity asked digest := Pairs.find? digest (asked.foldl (keep capacity) [])
  honest _ _ _ _ hfind :=
    (put_mem_of_mem_keep (Pairs.mem_of_find? hfind)).resolve_left List.not_mem_nil

end Cache

/-! ### Libraries -/

/-- The options that models are read with, and a cache with what was asked of it. -/
structure Library where
  options : LoadOptions
  cache : Cache
  asked : List Shelf.Operation
  /-- The number that the next model gets. -/
  next : Nat

namespace Library

/-- A library that remembers nothing yet. -/
def new (options : LoadOptions) (cache : Cache := .limited) : Library := ⟨options, cache, [], 0⟩

/-- What is remembered under a digest. -/
def find? (library : Library) (digest : Digest) : Option Held :=
  library.cache.find? library.options.cacheCapacity library.asked digest

/-- The model of other line ends: everything but the document is shared. -/
def withDocument (held : Held) (document : Document) (number : Nat) : Held :=
  ⟨{ held.loaded with model := { held.loaded.model with document } }, number⟩

def loadEvents (library : Library) (document : Document) : List Event :=
  match library.find? document.digest with
  | some _ =>
    [{ level := .debug, source := .loading, message := "model cache hit"
       fields := [("hash", .text document.digest.short)] }]
  | none =>
    let loaded := Loaded.ofDocument document library.options
    loaded.events
      ++ [{ level := .info, source := .loading, message := "parsed document"
            fields :=
              [("hash", .text document.digest.short),
               ("lines", .number document.size),
               ("keys", .number loaded.model.template.size),
               ("modes", .number loaded.model.modes.size),
               ("constraints", .number loaded.model.constraints.size),
               ("diagnostics", .number loaded.diagnostics.length)] }]

/-- Load a document, reusing what is remembered for the same lines. -/
def load (library : Library) (document : Document) : Held × Library :=
  let asked := library.asked ++ [.find document.digest]
  match library.find? document.digest with
  | some held =>
    if held.model.document = document then (held, { library with asked })
    else
      (withDocument held document library.next, { library with asked, next := library.next + 1 })
  | none =>
    let held : Held := ⟨Loaded.ofDocument document library.options, library.next⟩
    (held,
      { library with asked := asked ++ [.put document.digest held], next := library.next + 1 })

end Library

end AnnotatedEnv
