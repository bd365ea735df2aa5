/-
Module: AnnotatedEnv.Proofs.Selection
Purpose: Reading back a list of entries of which a part was written and the rest stands behind.
Main exports: Pairs.pairwise_of_filter_prefix, Pairs.filter_append_filter_not,
  Pairs.entries_ofList_filter_iff
-/
import AnnotatedEnv.Proofs.OrderedMap

namespace AnnotatedEnv

namespace Pairs

variable {α β γ : Type}

/-- If the keys of the selected elements are the first keys, the selected elements are the first
elements. -/
theorem pairwise_of_filter_prefix {xs : List γ} {f : γ → α} {p : γ → Bool}
    (hnodup : (xs.map f).Nodup) (h : (xs.filter p).map f <+: xs.map f) :
    xs.Pairwise fun a b => p b = true → p a = true := by
  induction xs with
  | nil => exact List.Pairwise.nil
  | cons x xs ih =>
      rw [List.map_cons, List.nodup_cons] at hnodup
      cases hx : p x with
      | true =>
          rw [List.filter_cons_of_pos hx, List.map_cons, List.map_cons] at h
          have hrest := ih hnodup.2 (List.prefix_cons_inj (f x) |>.1 h)
          exact List.Pairwise.cons (fun _ _ _ => hx) hrest
      | false =>
          rw [List.filter_cons_of_neg (by simp [hx])] at h
          -- The first key belongs to `x`, which is not selected, so nothing is selected at all.
          have hnone : xs.filter p = [] := by
            cases hfilter : xs.filter p with
            | nil => rfl
            | cons y ys =>
                rw [hfilter, List.map_cons, List.map_cons] at h
                have hhead : f y = f x := (List.cons_prefix_cons.1 h).1
                have hy : y ∈ xs.filter p := by rw [hfilter]; simp
                refine absurd ?_ hnodup.1
                rw [← hhead]
                exact List.mem_map_of_mem (List.mem_filter.1 hy).1
          have hall : ∀ y ∈ xs, p y = false := by
            intro y hy
            have hnot := List.filter_eq_nil_iff.1 hnone y hy
            simpa using hnot
          refine List.Pairwise.cons (fun y hy hpy => ?_) (ih hnodup.2 ?_)
          · rw [hall y hy] at hpy
            exact absurd hpy (by simp)
          · rw [hnone]
            exact List.nil_prefix

/-- Selected elements that come first are a part in front. -/
theorem filter_append_filter_not {xs : List γ} {p : γ → Bool}
    (h : xs.Pairwise fun a b => p b = true → p a = true) :
    xs.filter p ++ xs.filter (fun x => !p x) = xs := by
  induction h with
  | nil => rfl
  | @cons x xs hx hrest ih =>
      cases hpx : p x with
      | true => simp [hpx, ih]
      | false =>
          have hall : ∀ y ∈ xs, p y = false := by
            intro y hy
            cases hy' : p y with
            | false => rfl
            | true => exact absurd (hx y hy hy') (by simp [hpx])
          have hnone : xs.filter p = [] := by
            rw [List.filter_eq_nil_iff]
            intro y hy
            simp [hall y hy]
          rw [hnone] at ih
          simpa [hpx, hnone] using ih

variable [DecidableEq α]

/-- Inserting entries that a map has already leaves it as it is. -/
theorem insertAll_of_subset {m : OrderedMap α β} {es : List (α × β)}
    (h : ∀ e ∈ es, e ∈ m.entries) : m.insertAll es = m := by
  induction es with
  | nil => rfl
  | cons e es ih =>
      have hget : m.get? e.1 = some e.2 := (m.mem_entries_iff e.1 e.2).1 (h e (by simp))
      have hmem : e.1 ∈ m.keys := List.mem_map_of_mem (h e (by simp))
      have hinsert : m.insert e.1 e.2 = m := by
        apply OrderedMap.ext_get?
        · rw [OrderedMap.keys_insert, if_pos hmem]
        · intro k _
          rw [OrderedMap.get?_insert]
          split
          · next hk => rw [hk, hget]
          · rfl
      rw [OrderedMap.insertAll_cons, hinsert]
      exact ih fun e' he' => h e' (List.mem_cons_of_mem e he')

/-- Of the entries `shown ++ hidden`, those with `p` are written, and behind them stand entries for
the keys of `hidden`. The whole is read again exactly if all of `shown` is written, what stands
behind has the hidden values, and the written entries come first. -/
theorem entries_ofList_filter_iff {shown hidden behind : List (α × β)} {p : α × β → Bool}
    (hnodup : ((shown ++ hidden).map Prod.fst).Nodup)
    (hbehind : behind.map Prod.fst = hidden.map Prod.fst) :
    (OrderedMap.ofList ((shown ++ hidden).filter p ++ behind)).entries = shown ++ hidden ↔
      (∀ e ∈ shown, p e = true) ∧ behind = hidden ∧
        (shown ++ hidden).Pairwise fun a b => p b = true → p a = true := by
  have hparts := hnodup
  rw [List.map_append, List.nodup_append] at hparts
  rcases hparts with ⟨_, hhidden, hdisjoint⟩
  have hfilterNodup : (((shown ++ hidden).filter p).map Prod.fst).Nodup :=
    hnodup.sublist (List.filter_sublist.map _)
  have hnotHidden : ∀ e ∈ shown, e.1 ∉ hidden.map Prod.fst := by
    intro e he hmem
    exact hdisjoint e.1 (List.mem_map_of_mem he) e.1 hmem rfl
  constructor
  · intro h
    have hmem : ∀ e, e ∈ shown ++ hidden ↔
        (OrderedMap.ofList ((shown ++ hidden).filter p ++ behind)).get? e.1 = some e.2 := by
      intro e
      rw [← OrderedMap.mem_entries_iff, h]
    refine ⟨?_, ?_, ?_⟩
    · intro e he
      have hwhole : e ∈ shown ++ hidden := List.mem_append_left _ he
      have hkey : e.1 ∈ ((shown ++ hidden).filter p ++ behind).map Prod.fst := by
        have hkeys : e.1 ∈ (OrderedMap.ofList ((shown ++ hidden).filter p ++ behind)).keys := by
          rw [OrderedMap.keys, h]
          exact List.mem_map_of_mem hwhole
        rcases (OrderedMap.mem_keys_insertAll _ _ _).1 hkeys with hnil | hlist
        · exact absurd hnil (by simp [OrderedMap.keys, OrderedMap.empty])
        · exact hlist
      rw [List.map_append, List.mem_append, hbehind] at hkey
      rcases hkey with hkey | hkey
      · obtain ⟨e', he', heq⟩ := List.mem_map.1 hkey
        have hget' := (hmem e').1 (List.mem_filter.1 he').1
        have hget := (hmem e).1 hwhole
        rw [heq, hget] at hget'
        have hsame : e' = e := Prod.ext heq (Option.some.inj hget').symm
        exact hsame ▸ (List.mem_filter.1 he').2
      · exact absurd hkey (hnotHidden e he)
    · apply OrderedMap.entries_eq_of_get? hbehind hhidden
      intro e he
      have hlast : (OrderedMap.ofList ((shown ++ hidden).filter p ++ behind)).get? e.1 =
          some e.2 := by
        have hreverse : find? e.1 behind.reverse = some e.2 := by
          rw [find?_eq_some_iff, List.mem_reverse]
          · exact he
          · rw [List.map_reverse, hbehind]
            exact List.pairwise_reverse.2 (hhidden.imp Ne.symm)
        rw [OrderedMap.ofList_append, OrderedMap.get?_insertAll, hreverse, Option.some_or]
      rw [find?_eq_some_iff hhidden]
      rcases List.mem_append.1 ((hmem e).2 hlast) with hshown | hhid
      · exact absurd (hbehind ▸ List.mem_map_of_mem he) (hnotHidden e hshown)
      · exact hhid
    · apply pairwise_of_filter_prefix (f := Prod.fst) hnodup
      have hprefix := OrderedMap.keys_prefix_insertAll
        (OrderedMap.ofList ((shown ++ hidden).filter p)) behind
      rw [← OrderedMap.ofList_append, OrderedMap.keys, OrderedMap.keys, h,
        OrderedMap.entries_ofList hfilterNodup] at hprefix
      exact hprefix
  · rintro ⟨hshown, hvalues, hfirst⟩
    have hsplit := filter_append_filter_not hfirst
    have hfilterShown : shown.filter p = shown := List.filter_eq_self.2 hshown
    have hrestShown : shown.filter (fun e => !p e) = [] := by
      rw [List.filter_eq_nil_iff]
      intro e he
      simp [hshown e he]
    have hhid : hidden.filter p ++ hidden.filter (fun e => !p e) = hidden := by
      rw [List.filter_append, List.filter_append, hfilterShown, hrestShown, List.nil_append,
        List.append_assoc] at hsplit
      exact List.append_cancel_left hsplit
    have hknown : ∀ e ∈ hidden.filter p,
        e ∈ (OrderedMap.ofList ((shown ++ hidden).filter p)).entries := by
      intro e he
      rw [OrderedMap.entries_ofList hfilterNodup, List.filter_append]
      exact List.mem_append_right _ he
    have hrest : (shown ++ hidden).filter (fun e => !p e) = hidden.filter (fun e => !p e) := by
      rw [List.filter_append, hrestShown, List.nil_append]
    calc (OrderedMap.ofList ((shown ++ hidden).filter p ++ behind)).entries
        = ((OrderedMap.ofList ((shown ++ hidden).filter p)).insertAll
            (hidden.filter p ++ hidden.filter (fun e => !p e))).entries := by
          rw [OrderedMap.ofList_append, hvalues, hhid]
      _ = ((OrderedMap.ofList ((shown ++ hidden).filter p)).insertAll
            (hidden.filter (fun e => !p e))).entries := by
          rw [OrderedMap.insertAll_append, insertAll_of_subset hknown]
      _ = (OrderedMap.ofList (shown ++ hidden)).entries := by
          rw [← OrderedMap.ofList_append, ← hrest, hsplit]
      _ = shown ++ hidden := OrderedMap.entries_ofList hnodup

end Pairs

end AnnotatedEnv
