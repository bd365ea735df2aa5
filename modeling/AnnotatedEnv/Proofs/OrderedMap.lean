/-
Module: AnnotatedEnv.Proofs.OrderedMap
Purpose: When two ordered maps are equal, and what a list of insertions leaves.
Main exports: OrderedMap.ext_get?, OrderedMap.mem_entries_iff, OrderedMap.entries_ofList,
  OrderedMap.nodup_of_length_le_size_ofList, OrderedMap.get?_insertAll, OrderedMap.get?_replaceAll
-/
import AnnotatedEnv.OrderedMap

namespace AnnotatedEnv

namespace Pairs

variable {α β : Type} [DecidableEq α]

/-- Where no key repeats, a value is found exactly if it is listed with the key. -/
theorem find?_eq_some_iff {es : List (α × β)} (hnodup : (es.map Prod.fst).Nodup) (k : α) (v : β) :
    find? k es = some v ↔ (k, v) ∈ es := by
  induction es with
  | nil => simp [find?]
  | cons e es ih =>
      rcases e with ⟨j, w⟩
      rw [List.map_cons, List.nodup_cons] at hnodup
      by_cases h : j = k
      · subst h
        have hfresh : (j, v) ∉ es := fun hmem => hnodup.1 (List.mem_map.2 ⟨(j, v), hmem, rfl⟩)
        simp [find?, hfresh, eq_comm]
      · have h' : ¬ k = j := fun e => h e.symm
        simp [find?, h, h', ih hnodup.2]

theorem find?_eq_none_iff {es : List (α × β)} (k : α) :
    find? k es = none ↔ k ∉ es.map Prod.fst := by
  rw [← find?_isSome k es]
  simp

/-- Pairs in front are found first. -/
theorem find?_append (k : α) (es fs : List (α × β)) :
    find? k (es ++ fs) = (find? k es).or (find? k fs) := by
  induction es with
  | nil => simp [find?]
  | cons e es ih =>
      by_cases h : e.1 = k
      · simp [find?, h]
      · simp [find?, h, ih]

/-- A new key comes last. -/
theorem insert_of_not_mem {es : List (α × β)} {k : α} (h : k ∉ es.map Prod.fst) (v : β) :
    insert k v es = es ++ [(k, v)] := by
  induction es with
  | nil => rfl
  | cons e es ih =>
      rw [List.map_cons, List.mem_cons, not_or] at h
      have h' : ¬ e.1 = k := fun heq => h.1 heq.symm
      simp [insert, h', ih h.2]

end Pairs

namespace OrderedMap

variable {α β : Type}

/-! ### Equality -/

theorem ext_entries {m n : OrderedMap α β} (h : m.entries = n.entries) : m = n := by
  cases m
  cases n
  cases h
  rfl

theorem size_eq_length_keys (m : OrderedMap α β) : m.size = m.keys.length := by
  simp [size, keys]

variable [DecidableEq α]

/-- The entries of a map are its keys with their values. -/
theorem mem_entries_iff (m : OrderedMap α β) (k : α) (v : β) :
    (k, v) ∈ m.entries ↔ m.get? k = some v :=
  (Pairs.find?_eq_some_iff m.nodup k v).symm

theorem get?_eq_none_iff (m : OrderedMap α β) (k : α) : m.get? k = none ↔ k ∉ m.keys :=
  Pairs.find?_eq_none_iff k

theorem mem_keys_of_get? {m : OrderedMap α β} {k : α} {v : β} (h : m.get? k = some v) :
    k ∈ m.keys :=
  List.mem_map_of_mem ((m.mem_entries_iff k v).2 h)

/-- The entries are the keys in order, each with its value. -/
theorem entries_eq_of_get? {es fs : List (α × β)} (hkeys : es.map Prod.fst = fs.map Prod.fst)
    (hnodup : (fs.map Prod.fst).Nodup) (hvalues : ∀ e ∈ es, Pairs.find? e.1 fs = some e.2) :
    es = fs := by
  induction es generalizing fs with
  | nil => simpa using hkeys.symm
  | cons e es ih =>
      cases fs with
      | nil => simp at hkeys
      | cons f fs =>
          rw [List.map_cons, List.map_cons, List.cons.injEq] at hkeys
          rw [List.map_cons, List.nodup_cons] at hnodup
          have hhead : e.2 = f.2 := by
            have hfind := hvalues e (by simp)
            simp only [Pairs.find?, hkeys.1, if_true, Option.some.injEq] at hfind
            exact hfind.symm
          have htail : es = fs := by
            apply ih hkeys.2 hnodup.2
            intro e' he'
            have hfind := hvalues e' (by simp [he'])
            have hne : ¬ f.1 = e'.1 := by
              intro heq
              apply hnodup.1
              rw [heq, ← hkeys.2]
              exact List.mem_map_of_mem he'
            simpa [Pairs.find?, hne] using hfind
          rw [htail, Prod.ext hkeys.1 hhead]

/-- Two maps are equal if they have the same keys in the same order and the same values. -/
theorem ext_get? {m n : OrderedMap α β} (hkeys : m.keys = n.keys)
    (hvalues : ∀ k ∈ n.keys, m.get? k = n.get? k) : m = n := by
  apply ext_entries
  apply entries_eq_of_get? hkeys n.nodup
  rintro ⟨k, v⟩ hmem
  have hk : k ∈ n.keys := hkeys ▸ List.mem_map_of_mem hmem
  have hget : m.get? k = some v := (m.mem_entries_iff k v).1 hmem
  exact (hvalues k hk).symm.trans hget

/-! ### Insertions -/

theorem insertAll_cons (m : OrderedMap α β) (e : α × β) (es : List (α × β)) :
    m.insertAll (e :: es) = (m.insert e.1 e.2).insertAll es := rfl

theorem insertAll_append (m : OrderedMap α β) (es fs : List (α × β)) :
    m.insertAll (es ++ fs) = (m.insertAll es).insertAll fs :=
  List.foldl_append

theorem mem_keys_insertAll (m : OrderedMap α β) (es : List (α × β)) (k : α) :
    k ∈ (m.insertAll es).keys ↔ k ∈ m.keys ∨ k ∈ es.map Prod.fst := by
  induction es generalizing m with
  | nil => simp [insertAll]
  | cons e es ih =>
      rw [insertAll_cons, ih, keys_insert]
      split
      · next hmem =>
        constructor
        · rintro (h | h)
          · exact Or.inl h
          · exact Or.inr (by simp [h])
        · rintro (h | h)
          · exact Or.inl h
          · rcases List.mem_cons.1 h with rfl | h
            · exact Or.inl hmem
            · exact Or.inr h
      · simp [or_assoc]

/-- Keys that are known keep their places: new ones go behind them. -/
theorem keys_prefix_insertAll (m : OrderedMap α β) (es : List (α × β)) :
    m.keys <+: (m.insertAll es).keys := by
  induction es generalizing m with
  | nil => exact List.prefix_refl _
  | cons e es ih =>
      refine List.IsPrefix.trans ?_ (ih (m.insert e.1 e.2))
      rw [keys_insert]
      split
      · exact List.prefix_refl _
      · exact List.prefix_append _ _

/-- Entries with new and distinct keys are appended as they are. -/
theorem entries_insertAll_of_new {m : OrderedMap α β} {es : List (α × β)}
    (hnodup : (m.keys ++ es.map Prod.fst).Nodup) : (m.insertAll es).entries = m.entries ++ es := by
  induction es generalizing m with
  | nil => simp [insertAll]
  | cons e es ih =>
      have hnew : e.1 ∉ m.keys := by
        intro hmem
        exact (List.nodup_append.1 hnodup).2.2 e.1 hmem e.1 (by simp) rfl
      have hinsert : (m.insert e.1 e.2).entries = m.entries ++ [e] :=
        Pairs.insert_of_not_mem hnew e.2
      have hkeys : (m.insert e.1 e.2).keys = m.keys ++ [e.1] := by
        rw [keys_insert, if_neg hnew]
      rw [insertAll_cons, ih (by rw [hkeys]; simpa using hnodup), hinsert]
      simp

/-- Pairs without a repeated key are the entries of their map. -/
theorem entries_ofList {es : List (α × β)} (hnodup : (es.map Prod.fst).Nodup) :
    (ofList es).entries = es :=
  entries_insertAll_of_new (m := empty) hnodup

theorem size_insert_le (m : OrderedMap α β) (k : α) (v : β) : (m.insert k v).size ≤ m.size + 1 := by
  rw [size_eq_length_keys, size_eq_length_keys, keys_insert]
  split
  · omega
  · simp

theorem size_insertAll_le (m : OrderedMap α β) (es : List (α × β)) :
    (m.insertAll es).size ≤ m.size + es.length := by
  induction es generalizing m with
  | nil => exact Nat.le_refl _
  | cons e es ih =>
      have hrest := ih (m.insert e.1 e.2)
      have hone := m.size_insert_le e.1 e.2
      rw [insertAll_cons, List.length_cons]
      omega

/-- If as many keys come out as insertions went in, no insertion hit a known key. -/
theorem nodup_of_length_le_size_insertAll {m : OrderedMap α β} {es : List (α × β)}
    (h : m.size + es.length ≤ (m.insertAll es).size) : (m.keys ++ es.map Prod.fst).Nodup := by
  induction es generalizing m with
  | nil =>
      rw [List.map_nil, List.append_nil]
      exact m.nodup
  | cons e es ih =>
      rw [insertAll_cons, List.length_cons] at h
      have hrest := (m.insert e.1 e.2).size_insertAll_le es
      have hnew : e.1 ∉ m.keys := by
        intro hmem
        have hsize : (m.insert e.1 e.2).size = m.size := by
          rw [size_eq_length_keys, size_eq_length_keys, keys_insert, if_pos hmem]
        omega
      have hkeys : (m.insert e.1 e.2).keys = m.keys ++ [e.1] := by
        rw [keys_insert, if_neg hnew]
      have hsize : (m.insert e.1 e.2).size = m.size + 1 := by
        rw [size_eq_length_keys, size_eq_length_keys, hkeys, List.length_append,
          List.length_singleton]
      have hnodup := ih (m := m.insert e.1 e.2) (by omega)
      rw [hkeys] at hnodup
      simpa using hnodup

/-- A map as large as its pairs are many has no key twice among them. -/
theorem nodup_of_length_le_size_ofList {es : List (α × β)}
    (h : es.length ≤ (ofList es : OrderedMap α β).size) : (es.map Prod.fst).Nodup := by
  have hsize : (empty : OrderedMap α β).size + es.length ≤ (empty.insertAll es).size := by
    rwa [show (empty : OrderedMap α β).size = 0 from rfl, Nat.zero_add]
  exact nodup_of_length_le_size_insertAll hsize

/-- The last of several insertions of a key counts. -/
theorem get?_insertAll (m : OrderedMap α β) (es : List (α × β)) (k : α) :
    (m.insertAll es).get? k = (Pairs.find? k es.reverse).or (m.get? k) := by
  induction es generalizing m with
  | nil => rfl
  | cons e es ih =>
      rw [insertAll_cons, ih, get?_insert, List.reverse_cons, Pairs.find?_append, Option.or_assoc]
      congr 1
      by_cases h : k = e.1
      · simp [Pairs.find?, h]
      · have h' : ¬ e.1 = k := fun heq => h heq.symm
        simp [Pairs.find?, h, h']

theorem ofList_append (es fs : List (α × β)) :
    (ofList (es ++ fs) : OrderedMap α β) = (ofList es).insertAll fs :=
  insertAll_append empty es fs

/-- Of two lists of pairs the one behind is asked first. -/
theorem get?_ofList_append (es fs : List (α × β)) (k : α) :
    (ofList (es ++ fs) : OrderedMap α β).get? k =
      ((ofList fs).get? k).or ((ofList es).get? k) := by
  have hempty : (empty : OrderedMap α β).get? k = none := rfl
  have hlast : (ofList fs : OrderedMap α β).get? k = Pairs.find? k fs.reverse := by
    rw [ofList, get?_insertAll, hempty, Option.or_none]
  rw [ofList_append, get?_insertAll, hlast]

/-! ### Replacements -/

theorem replaceAll_cons (m : OrderedMap α β) (e : α × β) (es : List (α × β)) :
    m.replaceAll (e :: es) = (m.replace e.1 e.2).replaceAll es := rfl

theorem contains_replace (m : OrderedMap α β) (k k' : α) (v : β) :
    (m.replace k v).contains k' = m.contains k' := by
  rw [Bool.eq_iff_iff, contains_iff_mem_keys, contains_iff_mem_keys, keys_replace]

/-- Replacing by entries with distinct keys sets exactly the keys that the map has. -/
theorem get?_replaceAll (m : OrderedMap α β) {es : List (α × β)}
    (hnodup : (es.map Prod.fst).Nodup) (k : α) :
    (m.replaceAll es).get? k =
      if m.contains k then (Pairs.find? k es).or (m.get? k) else none := by
  induction es generalizing m with
  | nil =>
      cases h : m.get? k <;> simp [replaceAll, contains, Pairs.find?, h]
  | cons e es ih =>
      rw [List.map_cons, List.nodup_cons] at hnodup
      rw [replaceAll_cons, ih _ hnodup.2, contains_replace, get?_replace]
      by_cases h : k = e.1
      · subst h
        have hnone : Pairs.find? e.1 es = none := (Pairs.find?_eq_none_iff e.1).2 hnodup.1
        cases hm : m.get? e.1 <;> simp [contains, Pairs.find?, hnone, hm]
      · have h' : ¬ e.1 = k := fun heq => h heq.symm
        simp [Pairs.find?, h, h']

end OrderedMap

end AnnotatedEnv
