/-
Module: AnnotatedEnv.Proofs.Patch
Purpose: What making and applying patches does: of neighbouring lines, and without the instructions
  that change nothing.
Main exports: LinePatch.numbered, Patch.ofList_numbered, Patch.replaceLines_numbered,
  Patch.applyTo_numbered, Patch.replaced, Patch.replaced_numbered,
  Patch.getElem?_replaceLines_of_mem, Patch.applyTo_withLines, Patch.applyTo_retainChanged
-/
import AnnotatedEnv.Patch

namespace AnnotatedEnv

theorem Document.withLines_self (d : Document) : d.withLines d.lines = d := by
  rcases d with ⟨lines, digest, lineEnding, trailingNewline, rfl⟩
  rfl

/-- One instruction a line for the lines from `i` on. -/
def LinePatch.numbered : (i : Nat) → List String → List LinePatch
  | _, [] => []
  | i, text :: texts => ⟨i, text⟩ :: numbered (i + 1) texts

namespace LinePatch

theorem length_numbered (i : Nat) (texts : List String) :
    (numbered i texts).length = texts.length := by
  induction texts generalizing i with
  | nil => rfl
  | cons text texts ih => simp [numbered, ih]

theorem getElem_numbered {i j : Nat} {texts : List String} (htext : j < texts.length)
    (h : j < (numbered i texts).length) : (numbered i texts)[j] = ⟨i + j, texts[j]⟩ := by
  induction texts generalizing i j with
  | nil => exact absurd htext (by simp)
  | cons text texts ih =>
      cases j with
      | zero => rfl
      | succ j =>
          have hrest := ih (i := i + 1) (j := j) (by simpa using htext)
            (by simpa [numbered] using h)
          simp only [numbered, List.getElem_cons_succ, hrest]
          congr 1
          omega

theorem getElem?_numbered (i j : Nat) (texts : List String) :
    (numbered i texts)[j]? = texts[j]?.map fun text => ⟨i + j, text⟩ := by
  rcases Nat.lt_or_ge j texts.length with htext | htext
  · have h : j < (numbered i texts).length := by rwa [length_numbered]
    rw [List.getElem?_eq_getElem h, List.getElem?_eq_getElem htext, getElem_numbered htext h]
    rfl
  · have h : (numbered i texts).length ≤ j := by rwa [length_numbered]
    rw [List.getElem?_eq_none h, List.getElem?_eq_none htext]
    rfl

end LinePatch

namespace Patch

open LinePatch

/-- Instructions that count on pair each text with its place. -/
theorem mem_numbered_iff {i : Nat} {texts : List String} {p : LinePatch} :
    p ∈ numbered i texts ↔ ∃ j, texts[j]? = some p.text ∧ i + j = p.index := by
  rw [List.mem_iff_getElem?]
  refine exists_congr fun j => ?_
  rw [getElem?_numbered, Option.map_eq_some_iff]
  constructor
  · rintro ⟨text, htext, rfl⟩
    exact ⟨htext, rfl⟩
  · rintro ⟨htext, hindex⟩
    exact ⟨p.text, htext, by rw [hindex]⟩

/-- They are for neighbouring lines. -/
theorem index_mem_numbered {i : Nat} {texts : List String} {p : LinePatch}
    (h : p ∈ numbered i texts) : i ≤ p.index ∧ p.index < i + texts.length := by
  obtain ⟨j, htext, hindex⟩ := mem_numbered_iff.1 h
  obtain ⟨hlt, _⟩ := List.getElem?_eq_some_iff.1 htext
  omega

theorem sortByIndex_numbered (i : Nat) (texts : List String) :
    sortByIndex (numbered i texts) = numbered i texts := by
  induction texts generalizing i with
  | nil => rfl
  | cons text texts ih =>
      rw [numbered, sortByIndex, ih (i + 1)]
      cases texts with
      | nil => rfl
      | cons next texts => simp [numbered, insertSorted]

theorem dropRepeats_numbered {last : Option Nat} {i : Nat} (hlast : ∀ j, last = some j → j < i)
    (texts : List String) : dropRepeats last (numbered i texts) = numbered i texts := by
  induction texts generalizing last i with
  | nil => rfl
  | cons text texts ih =>
      have hne : last ≠ some i := fun heq => Nat.lt_irrefl i (hlast i heq)
      have hnext : ∀ j, some i = some j → j < i + 1 := by
        intro j hj
        obtain rfl := Option.some.inj hj
        exact Nat.lt_succ_self i
      rw [numbered, dropRepeats, if_neg hne, ih hnext]

/-- Instructions for neighbouring lines in order are a patch as they stand. -/
theorem ofList_numbered (base : Digest) (i : Nat) (texts : List String) :
    ofList base (numbered i texts) = ⟨base, numbered i texts⟩ := by
  rw [ofList, sortByIndex_numbered, dropRepeats_numbered (fun j hj => by simp at hj)]

theorem replaceLines_cons (lines : List String) (p : LinePatch) (ps : List LinePatch) :
    replaceLines lines (p :: ps) = replaceLines (lines.set p.index p.text) ps := rfl

/-- Instructions for neighbouring lines put the new texts where the old ones stood. -/
theorem replaceLines_numbered (front back : List String) {old new : List String}
    (hlength : old.length = new.length) :
    replaceLines (front ++ (old ++ back)) (numbered front.length new) = front ++ (new ++ back) := by
  induction new generalizing front old with
  | nil =>
      obtain rfl := List.length_eq_zero_iff.1 hlength
      rfl
  | cons text new ih =>
      cases old with
      | nil => exact absurd hlength (by simp)
      | cons line old =>
          have hset : (front ++ (line :: old ++ back)).set front.length text =
              (front ++ [text]) ++ (old ++ back) := by simp
          have hfront : front.length + 1 = (front ++ [text]).length := by simp
          rw [numbered, replaceLines_cons, hset, hfront,
            ih (front ++ [text]) (by simpa using hlength)]
          simp

/-- A patch of neighbouring lines that a document has applies to it. -/
theorem applyTo_numbered {d : Document} {front old new back : List String}
    (hlines : d.lines = front ++ (old ++ back)) (hlength : old.length = new.length) :
    (⟨d.digest, numbered front.length new⟩ : Patch).applyTo d =
      .ok (d.withLines (front ++ (new ++ back))) := by
  rw [applyTo_eq_ok_iff]
  refine ⟨rfl, ?_, ?_⟩
  · intro p hp
    have hindex := (index_mem_numbered hp).2
    rw [Document.size, hlines, List.length_append, List.length_append]
    omega
  · rw [hlines, replaceLines_numbered front back hlength]

/-! ### Replaced lines -/

/-- The lines that a patch replaces in a document, each with its new text. -/
def replaced (p : Patch) (d : Document) : List (String × String) :=
  p.instructions.filterMap fun i => (d.line? i.index).map fun line => (line, i.text)

/-- A patch of neighbouring lines replaces these lines in order. -/
theorem replaced_numbered {d : Document} {front old new back : List String}
    (hlines : d.lines = front ++ (old ++ back)) (hlength : old.length = new.length)
    (base : Digest) : (⟨base, numbered front.length new⟩ : Patch).replaced d = old.zip new := by
  induction new generalizing front old with
  | nil =>
      obtain rfl := List.length_eq_zero_iff.1 hlength
      rfl
  | cons text new ih =>
      cases old with
      | nil => exact absurd hlength (by simp)
      | cons line old =>
          have hline : d.line? front.length = some line := by
            rw [Document.line?, hlines, List.getElem?_append_right (Nat.le_refl _), Nat.sub_self]
            rfl
          have hnext : d.lines = (front ++ [line]) ++ (old ++ back) := by rw [hlines]; simp
          have hfront : front.length + 1 = (front ++ [line]).length := by simp
          have hrest := ih hnext (by simpa using hlength)
          simp only [replaced] at hrest
          simp only [replaced, numbered, List.filterMap_cons, hline, Option.map_some, hfront, hrest,
            List.zip_cons_cons]

/-! ### Lines behind a patch -/

/-- A line that no instruction is for stays. -/
theorem getElem?_replaceLines_of_ne {instructions : List LinePatch} {i : Nat}
    (h : ∀ p ∈ instructions, p.index ≠ i) (lines : List String) :
    (replaceLines lines instructions)[i]? = lines[i]? := by
  induction instructions generalizing lines with
  | nil => rfl
  | cons p ps ih =>
      have hlater : ∀ q ∈ ps, q.index ≠ i := fun q hq => h q (List.mem_cons_of_mem p hq)
      rw [replaceLines_cons, ih hlater, List.getElem?_set_ne (h p (List.mem_cons_self ..))]

/-- With one instruction a line, a line that an instruction is for gets its text. -/
theorem getElem?_replaceLines_of_mem {instructions : List LinePatch}
    (hnodup : (instructions.map LinePatch.index).Nodup) {p : LinePatch} (hp : p ∈ instructions)
    {lines : List String} (hindex : p.index < lines.length) :
    (replaceLines lines instructions)[p.index]? = some p.text := by
  induction instructions generalizing lines with
  | nil => exact absurd hp (by simp)
  | cons q qs ih =>
      obtain ⟨hnew, hrest⟩ := List.nodup_cons.1 hnodup
      rw [replaceLines_cons]
      rcases List.mem_cons.1 hp with rfl | hp
      · have hlater : ∀ q ∈ qs, q.index ≠ p.index := fun q hq heq =>
          hnew (heq ▸ List.mem_map_of_mem hq)
        rw [getElem?_replaceLines_of_ne hlater, List.getElem?_set_self hindex]
      · exact ih hrest hp (by simpa using hindex)

/-- Behind a patch every line is the old one or the text of an instruction. -/
theorem getElem?_replaceLines_cases (lines : List String) (instructions : List LinePatch)
    (i : Nat) :
    (replaceLines lines instructions)[i]? = lines[i]? ∨
      ∃ p ∈ instructions, (replaceLines lines instructions)[i]? = some p.text := by
  induction instructions generalizing lines with
  | nil => exact Or.inl rfl
  | cons p ps ih =>
      rw [replaceLines_cons]
      rcases ih (lines.set p.index p.text) with hset | ⟨q, hq, htext⟩
      · rw [hset, List.getElem?_set]
        split
        · split
          · exact Or.inr ⟨p, List.mem_cons_self .., rfl⟩
          · next heq hlength =>
            exact Or.inl (List.getElem?_eq_none (heq ▸ Nat.le_of_not_lt hlength)).symm
        · exact Or.inl rfl
      · exact Or.inr ⟨q, List.mem_cons_of_mem p hq, htext⟩

/-- No two of them are for one line. -/
theorem nodup_numbered (i : Nat) (texts : List String) :
    ((numbered i texts).map LinePatch.index).Nodup := by
  induction texts generalizing i with
  | nil => exact List.nodup_nil
  | cons text texts ih =>
      refine List.nodup_cons.2 ⟨fun hmem => ?_, ih (i + 1)⟩
      obtain ⟨p, hp, hindex⟩ := List.mem_map.1 hmem
      have hbound := (index_mem_numbered hp).1
      rw [hindex] at hbound
      exact absurd hbound (Nat.not_succ_le_self i)

/-- A patch for another document is refused with both digests. -/
theorem applyTo_of_base_ne {p : Patch} {d : Document} (h : p.base ≠ d.digest) :
    p.applyTo d = .error (.baseMismatch p.base d.digest) := by
  rw [applyTo, checkBase, if_neg h]

/-- How lines are ended makes no difference to a patch for them. -/
theorem applyTo_withLines (p : Patch) (d : Document) (lines : List String) :
    p.applyTo (d.withLines lines) =
      (p.applyTo (.ofLines lines)).map fun written => d.withLines written.lines := by
  have hdigest : (d.withLines lines).digest = (Document.ofLines lines).digest := rfl
  have hsize : (d.withLines lines).size = (Document.ofLines lines).size := rfl
  simp only [applyTo, checkBase, hdigest, hsize]
  by_cases hbase : p.base = (Document.ofLines lines).digest
  · simp only [if_pos hbase]
    cases p.instructions.find? fun i => (Document.ofLines lines).size ≤ i.index with
    | some bad => rfl
    | none => rfl
  · simp only [if_neg hbase]
    rfl

/-- Replacing a line by itself can be left out, as long as no other instruction is for that line. -/
theorem replaceLines_filter {d : Document} {instructions : List LinePatch} {lines : List String}
    (hnodup : (instructions.map LinePatch.index).Nodup)
    (hlines : ∀ p ∈ instructions, lines[p.index]? = d.line? p.index) :
    replaceLines lines (instructions.filter fun p => d.line? p.index ≠ some p.text) =
      replaceLines lines instructions := by
  induction instructions generalizing lines with
  | nil => rfl
  | cons p ps ih =>
      obtain ⟨hnew, hrest⟩ := List.nodup_cons.1 hnodup
      have hself := hlines p (List.mem_cons_self ..)
      -- The lines that later instructions look at are not touched by this one.
      have hlater : ∀ q ∈ ps, (lines.set p.index p.text)[q.index]? = d.line? q.index := by
        intro q hq
        have hne : p.index ≠ q.index := fun heq => hnew (heq ▸ List.mem_map_of_mem hq)
        rw [List.getElem?_set_ne hne]
        exact hlines q (List.mem_cons_of_mem p hq)
      by_cases hsame : d.line? p.index = some p.text
      · have hset : lines.set p.index p.text = lines := by
          apply List.ext_getElem?
          intro j
          by_cases hj : p.index = j
          · subst hj
            rw [List.getElem?_set_self', hself, hsame]
            rfl
          · rw [List.getElem?_set_ne hj]
        rw [List.filter_cons_of_neg (by simp [hsame]), replaceLines_cons, hset]
        exact ih hrest fun q hq => hlines q (List.mem_cons_of_mem p hq)
      · rw [List.filter_cons_of_pos (by simp [hsame]), replaceLines_cons, replaceLines_cons]
        exact ih hrest hlater

/-- Dropping the instructions that change nothing makes no difference to applying a patch with one
instruction a line, not even to the error. -/
theorem applyTo_retainChanged (p : Patch) (d : Document)
    (hnodup : (p.instructions.map LinePatch.index).Nodup) :
    (p.retainChanged d).applyTo d = p.applyTo d := by
  have hfind : (p.retainChanged d).instructions.find? (fun i => d.size ≤ i.index) =
      p.instructions.find? fun i => d.size ≤ i.index := by
    rw [retainChanged, List.find?_filter]
    congr 1
    funext i
    by_cases hi : d.size ≤ i.index
    · have hnone : d.line? i.index = none := List.getElem?_eq_none hi
      simp [hi, hnone]
    · simp [hi]
  have hlines : replaceLines d.lines (p.retainChanged d).instructions =
      replaceLines d.lines p.instructions :=
    replaceLines_filter hnodup fun _ _ => rfl
  rw [applyTo, applyTo, hfind, hlines]
  rfl

end Patch

end AnnotatedEnv
