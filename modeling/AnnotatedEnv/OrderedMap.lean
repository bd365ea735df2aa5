/-
Module: AnnotatedEnv.OrderedMap
Purpose: Finite maps that remember the order in which their keys first appeared.
Main exports: OrderedMap, OrderedMap.insert, OrderedMap.replace, OrderedMap.extend,
  OrderedMap.ofList, OrderedMap.get?_insert, OrderedMap.keys_insert
A key that is inserted again keeps its first position and takes the last value. Configurations,
mode groups and constraints are all read and shown in this order.
-/

namespace AnnotatedEnv

/-! ### Lists of pairs -/

namespace Pairs

variable {α β : Type} [DecidableEq α]

/-- Write `v` at the position of `k`, or at the end if `k` is new. -/
def insert (k : α) (v : β) : List (α × β) → List (α × β)
  | [] => [(k, v)]
  | (k', v') :: es => if k' = k then (k, v) :: es else (k', v') :: insert k v es

/-- Write `v` at the position of `k`; a key that is absent stays absent. -/
def replace (k : α) (v : β) : List (α × β) → List (α × β)
  | [] => []
  | (k', v') :: es => if k' = k then (k, v) :: es else (k', v') :: replace k v es

def find? (k : α) : List (α × β) → Option β
  | [] => none
  | (k', v) :: es => if k' = k then some v else find? k es

/-- A new key comes last, and a key that is there keeps its place. -/
theorem map_fst_insert (k : α) (v : β) (es : List (α × β)) :
    (insert k v es).map Prod.fst =
      if k ∈ es.map Prod.fst then es.map Prod.fst else es.map Prod.fst ++ [k] := by
  induction es with
  | nil => simp [insert]
  | cons e es ih =>
    obtain ⟨k', v'⟩ := e
    by_cases h : k' = k
    · simp [insert, h]
    · have h' : ¬ k = k' := fun e => h e.symm
      simp only [insert, if_neg h, List.map_cons, ih, List.mem_cons, h', false_or]
      split <;> simp

theorem map_fst_replace (k : α) (v : β) (es : List (α × β)) :
    (replace k v es).map Prod.fst = es.map Prod.fst := by
  induction es with
  | nil => rfl
  | cons e es ih =>
    obtain ⟨k', v'⟩ := e
    by_cases h : k' = k
    · simp [replace, h]
    · simp [replace, h, ih]

/-- A lookup after an insertion finds the inserted value under its key and all else as before. -/
theorem find?_insert (k k' : α) (v : β) (es : List (α × β)) :
    find? k' (insert k v es) = if k' = k then some v else find? k' es := by
  induction es with
  | nil =>
    by_cases h : k' = k
    · subst h
      simp [insert, find?]
    · have h' : ¬ k = k' := fun e => h e.symm
      simp [insert, find?, h, h']
  | cons e es ih =>
    obtain ⟨j, w⟩ := e
    by_cases hj : j = k
    · subst hj
      by_cases h : k' = j
      · subst h
        simp [insert, find?]
      · have h' : ¬ j = k' := fun e => h e.symm
        simp [insert, find?, h, h']
    · by_cases h : j = k'
      · subst h
        simp [insert, find?, hj]
      · simp [insert, find?, hj, h, ih]

/-- A replacement is found only where there was a value to replace. -/
theorem find?_replace (k k' : α) (v : β) (es : List (α × β)) :
    find? k' (replace k v es) =
      if k' = k then (find? k es).map fun _ => v else find? k' es := by
  induction es with
  | nil => simp [replace, find?]
  | cons e es ih =>
    obtain ⟨j, w⟩ := e
    by_cases hj : j = k
    · subst hj
      by_cases h : k' = j
      · subst h
        simp [replace, find?]
      · have h' : ¬ j = k' := fun e => h e.symm
        simp [replace, find?, h, h']
    · by_cases h : j = k'
      · subst h
        simp [replace, find?, hj]
      · simp [replace, find?, hj, h, ih]

/-- A key has a value exactly if it is listed. -/
theorem find?_isSome (k : α) (es : List (α × β)) :
    (find? k es).isSome = true ↔ k ∈ es.map Prod.fst := by
  induction es with
  | nil => simp [find?]
  | cons e es ih =>
    obtain ⟨j, w⟩ := e
    by_cases h : j = k
    · simp [find?, h]
    · have h' : ¬ k = j := fun e => h e.symm
      rw [find?, if_neg h, List.map_cons, List.mem_cons, ih]
      simp only [h', false_or]

theorem mem_of_find? {k : α} {v : β} {es : List (α × β)} (h : find? k es = some v) :
    (k, v) ∈ es := by
  induction es with
  | nil => exact absurd h (by simp [find?])
  | cons e es ih =>
      rcases e with ⟨j, w⟩
      simp only [find?] at h
      split at h
      · next hk =>
        cases h
        rw [hk]
        simp
      · exact List.mem_cons_of_mem _ (ih h)

theorem mem_insert {k : α} {v : β} {e : α × β} {es : List (α × β)} (h : e ∈ insert k v es) :
    e = (k, v) ∨ e ∈ es := by
  induction es with
  | nil => exact Or.inl (by simpa [insert] using h)
  | cons f es ih =>
      rcases f with ⟨j, w⟩
      simp only [insert] at h
      split at h
      · rcases List.mem_cons.1 h with h | h
        · exact Or.inl h
        · exact Or.inr (List.mem_cons_of_mem _ h)
      · rcases List.mem_cons.1 h with h | h
        · exact Or.inr (by simp [h])
        · rcases ih h with h | h
          · exact Or.inl h
          · exact Or.inr (List.mem_cons_of_mem _ h)

end Pairs

/-! ### The map -/

/-- A map as the list of its entries in order of first insertion. -/
structure OrderedMap (α β : Type) where
  entries : List (α × β)
  /-- No key occurs twice, so an entry is found at one position only. -/
  nodup : (entries.map Prod.fst).Nodup
  deriving DecidableEq, Repr

namespace OrderedMap

variable {α β : Type}

def empty : OrderedMap α β := ⟨[], List.nodup_nil⟩

instance : Inhabited (OrderedMap α β) := ⟨empty⟩

def keys (m : OrderedMap α β) : List α := m.entries.map Prod.fst

def values (m : OrderedMap α β) : List β := m.entries.map Prod.snd

def size (m : OrderedMap α β) : Nat := m.entries.length

def isEmpty (m : OrderedMap α β) : Bool := m.entries.isEmpty

variable [DecidableEq α]

def get? (m : OrderedMap α β) (k : α) : Option β := Pairs.find? k m.entries

def contains (m : OrderedMap α β) (k : α) : Bool := (m.get? k).isSome

/-- Set a key. A new key goes to the end, a known one keeps its position. -/
def insert (m : OrderedMap α β) (k : α) (v : β) : OrderedMap α β where
  entries := Pairs.insert k v m.entries
  nodup := by
    rw [Pairs.map_fst_insert]
    split
    · exact m.nodup
    · next h =>
      refine List.nodup_append.2 ⟨m.nodup, by simp, ?_⟩
      intro a ha b hb hab
      rw [List.mem_singleton] at hb
      exact h (hb ▸ hab ▸ ha)

/-- Set a key that the map has; the map stays as it is if it lacks the key. -/
def replace (m : OrderedMap α β) (k : α) (v : β) : OrderedMap α β where
  entries := Pairs.replace k v m.entries
  nodup := by
    rw [Pairs.map_fst_replace]
    exact m.nodup

/-- Insert the pairs one after another. -/
def insertAll (m : OrderedMap α β) (es : List (α × β)) : OrderedMap α β :=
  es.foldl (fun m e => m.insert e.1 e.2) m

/-- Replace by the pairs one after another. -/
def replaceAll (m : OrderedMap α β) (es : List (α × β)) : OrderedMap α β :=
  es.foldl (fun m e => m.replace e.1 e.2) m

/-- The map of a list of pairs: first positions, last values. -/
def ofList (es : List (α × β)) : OrderedMap α β := empty.insertAll es

def extend (m n : OrderedMap α β) : OrderedMap α β := m.insertAll n.entries

/-- Keep the entries that satisfy `p`, in order. -/
def filter (m : OrderedMap α β) (p : α × β → Bool) : OrderedMap α β where
  entries := m.entries.filter p
  nodup := m.nodup.sublist (List.filter_sublist.map _)

theorem keys_insert (m : OrderedMap α β) (k : α) (v : β) :
    (m.insert k v).keys = if k ∈ m.keys then m.keys else m.keys ++ [k] :=
  Pairs.map_fst_insert k v m.entries

theorem keys_replace (m : OrderedMap α β) (k : α) (v : β) : (m.replace k v).keys = m.keys :=
  Pairs.map_fst_replace k v m.entries

theorem get?_insert (m : OrderedMap α β) (k k' : α) (v : β) :
    (m.insert k v).get? k' = if k' = k then some v else m.get? k' :=
  Pairs.find?_insert k k' v m.entries

theorem get?_replace (m : OrderedMap α β) (k k' : α) (v : β) :
    (m.replace k v).get? k' = if k' = k then (m.get? k).map fun _ => v else m.get? k' :=
  Pairs.find?_replace k k' v m.entries

theorem contains_iff_mem_keys (m : OrderedMap α β) (k : α) :
    m.contains k = true ↔ k ∈ m.keys :=
  Pairs.find?_isSome k m.entries

/-- Replacing values leaves the keys and their order alone. -/
theorem keys_replaceAll (m : OrderedMap α β) (es : List (α × β)) :
    (m.replaceAll es).keys = m.keys := by
  induction es generalizing m with
  | nil => rfl
  | cons e es ih => exact (ih (m.replace e.1 e.2)).trans (m.keys_replace e.1 e.2)

end OrderedMap

/-- A configuration: keys and their values in the order of their lines. -/
abbrev Settings := OrderedMap String String

end AnnotatedEnv
