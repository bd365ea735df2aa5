/-
Module: AnnotatedEnv.Proofs.FirstOccurrences
Purpose: Each member of a list once, in the order in which the members first occur.
Main exports: FirstOccurrences, FirstOccurrences.unique, FirstOccurrences.concat_of_mem,
  FirstOccurrences.concat_of_not_mem, firstOccurrences_eraseDups,
  OrderedMap.firstOccurrences_ofList, OrderedMap.extend_ofList
The keys of an ordered map are in this order, whether the map was filled at once or extended by
another one.
-/
import Mathlib.Data.List.Basic
import Mathlib.Data.List.Induction
import AnnotatedEnv.Proofs.OrderedMap

namespace AnnotatedEnv

/-- The list `ks` holds the members of `xs`, each one once, and one whose first occurrence in `xs`
is earlier comes earlier. -/
structure FirstOccurrences {α : Type} [BEq α] (xs ks : List α) : Prop where
  mem_iff : ∀ k, k ∈ ks ↔ k ∈ xs
  inOrder : ks.Pairwise fun a b => xs.idxOf a < xs.idxOf b

namespace FirstOccurrences

variable {α : Type} [BEq α] {xs ks : List α}

theorem nil : FirstOccurrences ([] : List α) [] := ⟨fun _ => Iff.rfl, List.Pairwise.nil⟩

theorem nodup (h : FirstOccurrences xs ks) : ks.Nodup :=
  h.inOrder.imp fun hlt heq => absurd hlt (by simp [heq])

/-- There is one such list. -/
theorem unique {ks' : List α} (h : FirstOccurrences xs ks) (h' : FirstOccurrences xs ks') :
    ks = ks' := by
  have hperm : ks.Perm ks' :=
    (List.perm_ext_iff_of_nodup h.nodup h'.nodup).2 fun k => (h.mem_iff k).trans (h'.mem_iff k).symm
  exact hperm.eq_of_pairwise (fun a b _ _ hab hba => absurd hab (Nat.lt_asymm hba)) h.inOrder
    h'.inOrder

variable [LawfulBEq α]

/-- Members of the list keep their places if the list goes on. -/
theorem pairwise_append (h : FirstOccurrences xs ks) (ys : List α) :
    ks.Pairwise fun a b => (xs ++ ys).idxOf a < (xs ++ ys).idxOf b := by
  refine h.inOrder.imp_of_mem fun {a b} ha hb hlt => ?_
  rw [List.idxOf_append_of_mem ((h.mem_iff a).1 ha), List.idxOf_append_of_mem ((h.mem_iff b).1 hb)]
  exact hlt

/-- An item that was seen adds nothing. -/
theorem concat_of_mem (h : FirstOccurrences xs ks) {x : α} (hx : x ∈ ks) :
    FirstOccurrences (xs ++ [x]) ks where
  mem_iff k := by
    have hknown : k = x → k ∈ xs := fun heq => heq ▸ (h.mem_iff x).1 hx
    rw [h.mem_iff, List.mem_append, List.mem_singleton, or_iff_left_of_imp hknown]
  inOrder := h.pairwise_append [x]

/-- An item that was not seen yet comes last. -/
theorem concat_of_not_mem (h : FirstOccurrences xs ks) {x : α} (hx : x ∉ ks) :
    FirstOccurrences (xs ++ [x]) (ks ++ [x]) where
  mem_iff k := by rw [List.mem_append, List.mem_append, h.mem_iff]
  inOrder := by
    have hnew : x ∉ xs := fun hmem => hx ((h.mem_iff x).2 hmem)
    refine List.pairwise_append.2 ⟨h.pairwise_append [x], List.pairwise_singleton _ x, ?_⟩
    intro a ha b hb
    have hmem : a ∈ xs := (h.mem_iff a).1 ha
    have hlt : xs.idxOf a < xs.length := List.idxOf_lt_length_of_mem hmem
    rw [List.mem_singleton.1 hb, List.idxOf_append_of_mem hmem, List.idxOf_append_of_notMem hnew]
    omega

/-- A list without repeats is in order itself. -/
theorem of_nodup (h : xs.Nodup) : FirstOccurrences xs xs := by
  induction xs using List.reverseRecOn with
  | nil => exact .nil
  | append_singleton xs x ih =>
      obtain ⟨hxs, _, hdisjoint⟩ := List.nodup_append.1 h
      exact (ih hxs).concat_of_not_mem fun hmem => hdisjoint x hmem x (by simp) rfl

end FirstOccurrences

/-- Erasing repeats leaves the first occurrences. -/
theorem firstOccurrences_eraseDups {α : Type} [BEq α] [LawfulBEq α] (xs : List α) :
    FirstOccurrences xs xs.eraseDups := by
  induction xs using List.reverseRecOn with
  | nil => exact .nil
  | append_singleton xs x ih =>
      rw [List.eraseDups_append]
      by_cases hx : x ∈ xs
      · have hnone : ([x].removeAll xs).eraseDups = [] := by simp [List.removeAll, hx]
        rw [hnone, List.append_nil]
        exact ih.concat_of_mem ((ih.mem_iff x).2 hx)
      · have hnew : ([x].removeAll xs).eraseDups = [x] := by
          simp [List.removeAll, hx, List.eraseDups_cons]
        rw [hnew]
        exact ih.concat_of_not_mem fun hmem => hx ((ih.mem_iff x).1 hmem)

namespace OrderedMap

variable {α β : Type} [DecidableEq α]

theorem firstOccurrences_insert {m : OrderedMap α β} {xs : List α}
    (h : FirstOccurrences xs m.keys) (k : α) (v : β) :
    FirstOccurrences (xs ++ [k]) (m.insert k v).keys := by
  rw [keys_insert]
  split
  · next hmem => exact h.concat_of_mem hmem
  · next hmem => exact h.concat_of_not_mem hmem

/-- The keys of a map are the first occurrences of the keys that were inserted. -/
theorem firstOccurrences_insertAll {m : OrderedMap α β} {xs : List α}
    (h : FirstOccurrences xs m.keys) (es : List (α × β)) :
    FirstOccurrences (xs ++ es.map Prod.fst) (m.insertAll es).keys := by
  induction es generalizing m xs with
  | nil => simpa [insertAll] using h
  | cons e es ih =>
      have hrest := ih (firstOccurrences_insert h e.1 e.2)
      simpa [insertAll_cons] using hrest

/-- The keys of a map are those of the pairs that fill it, in the order in which they come. -/
theorem firstOccurrences_ofList (es : List (α × β)) :
    FirstOccurrences (es.map Prod.fst) (ofList es).keys :=
  firstOccurrences_insertAll (m := empty) .nil es

/-! ### Extending a map -/

/-- The entries of a map may be searched from either end. -/
theorem find?_reverse_entries (m : OrderedMap α β) (k : α) :
    Pairs.find? k m.entries.reverse = m.get? k := by
  have hnodup : (m.entries.reverse.map Prod.fst).Nodup := by
    rw [List.map_reverse]
    exact List.pairwise_reverse.2 (m.nodup.imp Ne.symm)
  ext v
  rw [Pairs.find?_eq_some_iff hnodup, List.mem_reverse, mem_entries_iff]

/-- Of two maps the one that extends is asked first. -/
theorem get?_extend (m n : OrderedMap α β) (k : α) :
    (m.extend n).get? k = (n.get? k).or (m.get? k) := by
  rw [extend, get?_insertAll, find?_reverse_entries]

/-- The keys of an extended map come before those that are new in the other. -/
theorem firstOccurrences_extend (m n : OrderedMap α β) :
    FirstOccurrences (m.keys ++ n.keys) (m.extend n).keys :=
  firstOccurrences_insertAll (.of_nodup m.nodup) n.entries

theorem extend_insert (m n : OrderedMap α β) (k : α) (v : β) :
    m.extend (n.insert k v) = (m.extend n).insert k v := by
  apply ext_get?
  · have hinserted := firstOccurrences_insert (firstOccurrences_extend m n) k v
    have hextended := firstOccurrences_extend m (n.insert k v)
    by_cases hmem : k ∈ n.keys
    · have hknown : k ∈ (m.extend n).keys :=
        ((firstOccurrences_extend m n).mem_iff k).2 (List.mem_append_right _ hmem)
      rw [keys_insert, if_pos hmem] at hextended
      rw [keys_insert, if_pos hknown]
      exact hextended.unique (firstOccurrences_extend m n)
    · rw [keys_insert, if_neg hmem, ← List.append_assoc] at hextended
      exact hextended.unique hinserted
  · intro j _
    rw [get?_extend, get?_insert, get?_insert, get?_extend]
    split <;> rfl

/-- Extending by the map of some pairs is inserting the pairs. -/
theorem extend_ofList (m : OrderedMap α β) (es : List (α × β)) :
    m.extend (ofList es) = m.insertAll es := by
  induction es using List.reverseRecOn with
  | nil => rfl
  | append_singleton es e ih =>
      rw [ofList_append, insertAll_append, ← ih]
      exact extend_insert m (ofList es) e.1 e.2

end OrderedMap

end AnnotatedEnv
