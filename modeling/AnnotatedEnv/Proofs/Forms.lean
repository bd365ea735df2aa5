/-
Module: AnnotatedEnv.Proofs.Forms
Purpose: What is read from the JSON forms of digests and patches.
Main exports: Digest.ofJson?_toJson, LinePatch.ofJson?_toJson, Patch.ofJson?_toJson,
  Patch.exists_form_iff
-/
import AnnotatedEnv.Json.Forms
import AnnotatedEnv.Proofs.Hex

namespace AnnotatedEnv

/-! ### Lists and numbers -/

/-- Items that are read back one by one are read back as a list. -/
theorem readAll_map {α β : Type} {write : β → α} {read : α → Option β} {ys : List β}
    (h : ∀ y ∈ ys, read (write y) = some y) : readAll read (ys.map write) = some ys := by
  induction ys with
  | nil => rfl
  | cons y ys ih =>
      have hrest := ih fun z hz => h z (List.mem_cons_of_mem y hz)
      simp only [List.map_cons, readAll, h y (List.mem_cons_self ..), hrest]

/-- What holds of every item that is read holds of all items of a list that is. -/
theorem forall_of_readAll {α β : Type} {read : α → Option β} {P : β → Prop}
    (h : ∀ x y, read x = some y → P y) {xs : List α} {ys : List β}
    (hread : readAll read xs = some ys) : ∀ y ∈ ys, P y := by
  induction xs generalizing ys with
  | nil =>
      cases hread
      exact fun y hy => absurd hy (by simp)
  | cons x xs ih =>
      rw [readAll] at hread
      split at hread
      · next y rest hfirst hrest =>
        cases hread
        exact List.forall_mem_cons.2 ⟨h x y hfirst, ih hrest⟩
      · exact absurd hread (by simp)

theorem Json.toWord?_nat {n : Nat} (h : n < 18446744073709551616) : (nat n).toWord? = some n := by
  have hbound : (0 : Int) ≤ n ∧ (n : Int) < 18446744073709551616 := by omega
  simp [nat, toWord?, hbound]

theorem Json.lt_of_toWord? {v : Json} {n : Nat} (h : v.toWord? = some n) :
    n < 18446744073709551616 := by
  unfold toWord? at h
  split at h
  · split at h
    · next hbound =>
      cases h
      omega
    · exact absurd h (by simp)
  · exact absurd h (by simp)

/-! ### Digests and patches -/

/-- A digest is read back from its JSON form. -/
theorem Digest.ofJson?_toJson (d : Digest) : ofJson? d.toJson = some d := by
  simp only [ofJson?, toJson, ofText_render, Except.toOption]

theorem LinePatch.ofJson?_of_fields {v index text : Json} {p : LinePatch}
    (hfields : v.fields? ["line_index", "new_line_text"] = some [some index, some text])
    (hindex : index.toWord? = some p.index) (htext : text.toText? = some p.text) :
    ofJson? v = some p := by
  simp only [ofJson?, hfields, hindex, htext]

/-- So is an instruction whose index is a word. -/
theorem LinePatch.ofJson?_toJson {p : LinePatch} (h : p.index < 18446744073709551616) :
    ofJson? p.toJson = some p := by
  have hfields : p.toJson.fields? ["line_index", "new_line_text"] =
      some [some (.nat p.index), some (.string p.text)] := by
    simp [toJson, Json.fields?, Json.member?]
  exact ofJson?_of_fields hfields (Json.toWord?_nat h) rfl

/-- No index is read that is not a word. -/
theorem LinePatch.lt_of_ofJson? {v : Json} {p : LinePatch} (h : ofJson? v = some p) :
    p.index < 18446744073709551616 := by
  unfold ofJson? at h
  split at h
  · split at h
    · next hindex _ =>
      cases h
      exact Json.lt_of_toWord? hindex
    · exact absurd h (by simp)
  · exact absurd h (by simp)

namespace Patch

/-- A patch whose indices are words is read back from its JSON form, whatever the order of its
instructions. -/
theorem ofJson?_toJson {p : Patch} (h : ∀ i ∈ p.instructions, i.index < 18446744073709551616) :
    ofJson? p.toJson = some p := by
  have hinstructions : readAll LinePatch.ofJson? (p.instructions.map (·.toJson)) =
      some p.instructions :=
    readAll_map fun i hi => LinePatch.ofJson?_toJson (h i hi)
  have hfields : p.toJson.fields? ["base_hash", "instructions"] =
      some [some p.base.toJson, some (.array (p.instructions.map (·.toJson)))] := by
    simp [toJson, Json.fields?, Json.member?]
  simp only [ofJson?, hfields, hinstructions, Digest.ofJson?_toJson]

/-- Whatever its instructions and their order, a patch can be read from a JSON form, as long as
the indices fit into sixty-four bits. -/
theorem exists_form_iff (p : Patch) :
    (∃ form, ofJson? form = some p) ↔ ∀ i ∈ p.instructions, i.index < 18446744073709551616 := by
  constructor
  · rintro ⟨form, h⟩
    unfold ofJson? at h
    split at h
    · split at h
      · next hinstructions =>
        cases h
        exact forall_of_readAll (fun _ _ => LinePatch.lt_of_ofJson?) hinstructions
      · exact absurd h (by simp)
    · exact absurd h (by simp)
  · exact fun h => ⟨p.toJson, ofJson?_toJson h⟩

end Patch

end AnnotatedEnv
