/-
Module: AnnotatedEnv.Proofs.RepeatedKeys
Purpose: Which assignments of a body repeat a key.
Main exports: Diagnostic.repeatedKey, TemplateBlock.mem_assignedKeys_iff,
  TemplateBlock.length_diagnostics_repeats, TemplateBlock.repeats_eq_filterMap,
  TemplateBlock.mem_diagnostics_repeats_iff
Reading keeps the keys that it has seen. What it finds in the end is told from the whole body.
-/
import Mathlib.Data.Finset.Card
import Mathlib.Data.Finset.SDiff
import Mathlib.Data.List.ProdSigma
import AnnotatedEnv.Proofs.OwnLines

namespace AnnotatedEnv

/-- What is told of a line that assigns a key again. -/
def Diagnostic.repeatedKey (line : Nat) (key : String) (earlier : Nat) : Diagnostic :=
  ⟨line, .duplicateKey, "'" ++ key ++ "' already assigned on line " ++ toString (earlier + 1)⟩

/-- In lists with growing numbers the entry that is found is the one with the least number. -/
theorem Pairs.find?_swap_eq_some_iff {keys : List (Nat × String)}
    (h : keys.Pairwise (·.1 < ·.1)) {key : String} {line : Nat} :
    find? key (keys.map Prod.swap) = some line ↔
      (line, key) ∈ keys ∧ ∀ other, (other, key) ∈ keys → line ≤ other := by
  induction keys with
  | nil => simp [find?]
  | cons e keys ih =>
      obtain ⟨first, k⟩ := e
      obtain ⟨hfirst, hrest⟩ := List.pairwise_cons.1 h
      rw [List.map_cons, Prod.swap_prod_mk, find?]
      by_cases hkey : k = key
      · subst hkey
        simp only [if_true, Option.some.injEq, List.mem_cons, Prod.mk.injEq, and_true]
        constructor
        · rintro rfl
          refine ⟨Or.inl rfl, ?_⟩
          rintro other (rfl | hmem)
          · exact Nat.le_refl _
          · exact Nat.le_of_lt (hfirst _ hmem)
        · rintro ⟨hmem | hmem, hleast⟩
          · exact hmem.symm
          · exact absurd (hleast first (Or.inl rfl)) (Nat.not_le.2 (hfirst _ hmem))
      · simp [hkey, ih hrest, Ne.symm hkey]

namespace TemplateBlock

/-- The assigned keys of a body are those of its lines, each with its line. -/
theorem mem_assignedKeys_iff {body : List NumberedLine} {line : Nat} {key : String} :
    (line, key) ∈ assignedKeys body ↔ ∃ l ∈ body, l.index = line ∧ l.Assigns key := by
  rw [assignedKeys, List.mem_filterMap]
  refine exists_congr fun l => and_congr_right fun _ => ?_
  simp only [Option.map_eq_some_iff, Prod.mk.injEq, NumberedLine.Assigns]
  constructor
  · rintro ⟨⟨_, value⟩, hparse, rfl, rfl⟩
    exact ⟨rfl, value, hparse⟩
  · rintro ⟨rfl, value, hparse⟩
    exact ⟨_, hparse, rfl, rfl⟩

theorem fst_assignedKeys_sublist (body : List NumberedLine) :
    ((assignedKeys body).map Prod.fst).Sublist (body.map (·.index)) := by
  induction body with
  | nil => exact .refl _
  | cons line body ih =>
      rw [assignedKeys] at ih ⊢
      cases hparse : Assignment.parse? line.text with
      | none => simpa [hparse] using ih.cons line.index
      | some a => simpa [hparse] using ih.cons_cons line.index

/-- The diagnostics of repeated keys stand on some of the lines, in their order. -/
theorem lines_repeats_sublist (seen : List (String × Nat)) (keys : List (Nat × String)) :
    ((Notice.diagnostics (repeats seen keys)).map (·.line)).Sublist (keys.map Prod.fst) := by
  induction keys generalizing seen with
  | nil => exact .refl _
  | cons e keys ih =>
      obtain ⟨line, key⟩ := e
      rw [repeats]
      cases Pairs.find? key seen with
      | none => exact (ih ((key, line) :: seen)).cons line
      | some earlier => exact (ih seen).cons_cons line

/-- Every line adds a key that was not seen or a diagnostic. -/
theorem length_diagnostics_repeats (seen : List (String × Nat)) (keys : List (Nat × String)) :
    keys.length = ((keys.map Prod.snd).toFinset \ (seen.map Prod.fst).toFinset).card +
      (Notice.diagnostics (repeats seen keys)).length := by
  induction keys generalizing seen with
  | nil => simp [repeats, Notice.diagnostics]
  | cons e keys ih =>
      obtain ⟨line, key⟩ := e
      rw [repeats, List.map_cons, List.toFinset_cons, List.length_cons]
      cases hfind : Pairs.find? key seen with
      | some earlier =>
          have hseen : key ∈ (seen.map Prod.fst).toFinset :=
            List.mem_toFinset.2 (List.mem_map_of_mem (Pairs.mem_of_find? hfind))
          rw [Finset.insert_sdiff_of_mem _ hseen, ih seen]
          rfl
      | none =>
          have hnew : key ∉ (seen.map Prod.fst).toFinset :=
            mt List.mem_toFinset.1 ((Pairs.find?_eq_none_iff key).1 hfind)
          have hsplit : insert key (keys.map Prod.snd).toFinset \ (seen.map Prod.fst).toFinset =
              insert key ((keys.map Prod.snd).toFinset \
                insert key (seen.map Prod.fst).toFinset) := by
            ext k
            by_cases hk : k = key
            · subst hk
              simpa using hnew
            · simp [hk]
          rw [hsplit, Finset.card_insert_of_notMem (by simp), ih ((key, line) :: seen),
            List.map_cons, List.toFinset_cons]
          exact Nat.add_right_comm _ _ _

/-- The notice that an assignment needs among all assignments of a body: one of its key is in front
of it. -/
def repeated? (keys : List (Nat × String)) (e : Nat × String) : Option Notice :=
  ((Pairs.find? e.2 (keys.map Prod.swap)).filter (· < e.1)).map (.repeatedKey e.1 e.2)

/-- What is seen of a body, assignment by assignment, is enough to tell the repeats from the whole
body. -/
theorem repeats_eq_filterMap {seen : List (String × Nat)} {front keys : List (Nat × String)}
    (hseen : ∀ key, Pairs.find? key seen = Pairs.find? key (front.map Prod.swap))
    (hsorted : (front ++ keys).Pairwise (·.1 < ·.1)) :
    repeats seen keys = keys.filterMap (repeated? (front ++ keys)) := by
  induction keys generalizing seen front with
  | nil => rfl
  | cons e keys ih =>
      obtain ⟨line, key⟩ := e
      rw [List.append_cons] at hsorted ⊢
      have hnext : ∀ k, Pairs.find? k ((front ++ [(line, key)]).map Prod.swap) =
          (Pairs.find? k seen).or (if key = k then some line else none) := by
        intro k
        rw [List.map_append, Pairs.find?_append, hseen]
        rfl
      have hfirst : Pairs.find? key ((front ++ [(line, key)] ++ keys).map Prod.swap) =
          (Pairs.find? key seen).or (some line) := by
        rw [List.map_append, Pairs.find?_append, hnext, if_pos rfl]
        cases Pairs.find? key seen <;> rfl
      rw [repeats, List.filterMap_cons, repeated?, hfirst]
      cases hfind : Pairs.find? key seen with
      | some earlier =>
          have hbefore : earlier < line := by
            have hmem := Pairs.mem_of_find? ((hseen key).symm.trans hfind)
            rw [List.mem_map_swap earlier key] at hmem
            have hin := (List.pairwise_append.1 hsorted).1
            exact (List.pairwise_append.1 hin).2.2 (earlier, key) hmem (line, key) (by simp)
          have hstays : ∀ k, Pairs.find? k seen =
              Pairs.find? k ((front ++ [(line, key)]).map Prod.swap) := by
            intro k
            rw [hnext]
            by_cases hk : key = k
            · rw [← hk, hfind]
              rfl
            · simp [hk]
          rw [ih hstays hsorted]
          simp [Option.filter_some, hbefore]
      | none =>
          have hgrows : ∀ k, Pairs.find? k ((key, line) :: seen) =
              Pairs.find? k ((front ++ [(line, key)]).map Prod.swap) := by
            intro k
            rw [hnext, Pairs.find?]
            by_cases hk : key = k
            · rw [← hk, hfind]
              simp
            · simp [hk]
          rw [ih hgrows hsorted]
          simp [Option.filter_some]

/-- The diagnostics of a body with growing line numbers. -/
theorem mem_diagnostics_repeats_iff {keys : List (Nat × String)}
    (hsorted : keys.Pairwise (·.1 < ·.1)) {diagnostic : Diagnostic} :
    diagnostic ∈ Notice.diagnostics (repeats [] keys) ↔
      ∃ line key earlier, (line, key) ∈ keys ∧
        Pairs.find? key (keys.map Prod.swap) = some earlier ∧ earlier < line ∧
        diagnostic = .repeatedKey line key earlier := by
  have hseen : ∀ key, Pairs.find? key ([] : List (String × Nat)) =
      Pairs.find? key (([] : List (Nat × String)).map Prod.swap) := fun _ => rfl
  have hwhole : repeats [] keys = keys.filterMap (repeated? keys) :=
    repeats_eq_filterMap hseen hsorted
  rw [Notice.diagnostics, List.mem_filterMap, hwhole]
  constructor
  · rintro ⟨notice, hnotice, hdiagnostic⟩
    obtain ⟨⟨line, key⟩, hmem, hrepeated⟩ := List.mem_filterMap.1 hnotice
    obtain ⟨earlier, hfind, rfl⟩ := Option.map_eq_some_iff.1 hrepeated
    obtain ⟨hfind, hbefore⟩ := Option.filter_eq_some_iff.1 hfind
    exact ⟨line, key, earlier, hmem, hfind, by simpa using hbefore,
      (Option.some.inj hdiagnostic).symm⟩
  · rintro ⟨line, key, earlier, hmem, hfind, hbefore, rfl⟩
    refine ⟨.repeatedKey line key earlier, List.mem_filterMap.2 ⟨(line, key), hmem, ?_⟩, rfl⟩
    simp [repeated?, hfind, hbefore]

end TemplateBlock

end AnnotatedEnv
