/-
Module: AnnotatedEnv.Proofs.Cuts
Purpose: What cutting a text leaves: its longest run, its inside without blanks, its entries.
Main exports: Text.run_unique, Text.TrimsStart, Text.Trims, Text.trim_eq_iff, Text.CommaSeparated,
  Text.pieces_comma_eq_iff
The cuts are told by what the parts are and how they make up the text, with no word on the order
in which the characters are looked at.
-/
import AnnotatedEnv.Proofs.Lines

namespace AnnotatedEnv

namespace Text

/-! ### Runs -/

/-- A scan takes a run whole and stops at its end. -/
theorem takeWhile_run {p : Char → Bool} {run rest : List Char} (hrun : ∀ c ∈ run, p c = true)
    (hends : ∀ c ∈ rest.head?, p c = false) : (run ++ rest).takeWhile p = run := by
  rw [List.takeWhile_append_of_pos hrun]
  cases rest with
  | nil => simp
  | cons c rest => simp [hends c rfl]

/-- What is left behind a run starts where the run ends. -/
theorem dropWhile_run {p : Char → Bool} {run rest : List Char} (hrun : ∀ c ∈ run, p c = true)
    (hends : ∀ c ∈ rest.head?, p c = false) : (run ++ rest).dropWhile p = rest := by
  rw [List.dropWhile_append_of_pos hrun]
  cases rest with
  | nil => rfl
  | cons c rest => simp [hends c rfl]

/-- A text is cut in one place behind its longest run. -/
theorem run_unique {p : Char → Bool} {run rest run' rest' : List Char}
    (hrun : ∀ c ∈ run, p c = true) (hends : ∀ c ∈ rest.head?, p c = false)
    (hrun' : ∀ c ∈ run', p c = true) (hends' : ∀ c ∈ rest'.head?, p c = false)
    (h : run ++ rest = run' ++ rest') : run = run' ∧ rest = rest' := by
  have htake : run = run' := by
    rw [← takeWhile_run hrun hends, h, takeWhile_run hrun' hends']
  have hdrop : rest = rest' := by
    rw [← dropWhile_run hrun hends, h, dropWhile_run hrun' hends']
  exact ⟨htake, hdrop⟩

theorem forall_mem_takeWhile (p : Char → Bool) (cs : List Char) :
    ∀ c ∈ cs.takeWhile p, p c = true :=
  List.all_eq_true.1 List.all_takeWhile

theorem head?_dropWhile_eq_false (p : Char → Bool) (cs : List Char) :
    ∀ c ∈ (cs.dropWhile p).head?, p c = false := by
  intro c hc
  have hhead := List.head?_dropWhile_not p cs
  rw [Option.mem_def.1 hc] at hhead
  exact hhead

theorem head?_cons_eq_false {p : Char → Bool} {d : Char} (h : p d = false) (rest : List Char) :
    ∀ c ∈ (d :: rest).head?, p c = false := by
  intro c hc
  obtain rfl : d = c := by simpa using hc
  exact h

/-- Blanks end a key, and so does what stands behind them if there are none. -/
theorem head?_blanks {blanks behind : List Char} (hblanks : ∀ c ∈ blanks, isBlank c = true)
    (hbehind : blanks = [] → ∀ c ∈ behind.head?, isKeyChar c = false) :
    ∀ c ∈ (blanks ++ behind).head?, isKeyChar c = false := by
  cases blanks with
  | nil => exact hbehind rfl
  | cons b blanks =>
      have hb : isBlank b = true := hblanks b (by simp)
      have hnoKey : isKeyChar b = false := by
        cases hkey : isKeyChar b with
        | false => rfl
        | true => exact absurd hb (by simp [isBlank_eq_false_of_isKeyChar hkey])
      exact head?_cons_eq_false hnoKey (blanks ++ behind)

/-! ### Trimming -/

/-- `inner` is what the blanks in front of a text leave of it. -/
structure TrimsStart (cs inner : List Char) : Prop where
  cut : ∃ front, (∀ c ∈ front, isBlank c = true) ∧ cs = front ++ inner
  first : ∀ c ∈ inner.head?, isBlank c = false

/-- `inner` is what the blanks at both ends of a text leave of it. -/
structure Trims (cs inner : List Char) : Prop where
  cut : ∃ front back, (∀ c ∈ front, isBlank c = true) ∧ (∀ c ∈ back, isBlank c = true) ∧
    cs = front ++ (inner ++ back)
  first : ∀ c ∈ inner.head?, isBlank c = false
  last : ∀ c ∈ inner.getLast?, isBlank c = false

/-- A text without blanks at its ends is left as it is. -/
theorem Trims.refl {cs : List Char} (hfirst : ∀ c ∈ cs.head?, isBlank c = false)
    (hlast : ∀ c ∈ cs.getLast?, isBlank c = false) : Trims cs cs :=
  ⟨⟨[], [], by simp, by simp, by simp⟩, hfirst, hlast⟩

theorem Trims.of_forall {cs : List Char} (h : ∀ c ∈ cs, isBlank c = false) : Trims cs cs :=
  .refl (fun c hc => h c (List.mem_of_head? hc)) fun c hc => h c (List.mem_of_getLast? hc)

/-- What is left of a text without the blanks in front of it, told as a relation. -/
theorem trimStart_eq_iff (cs inner : List Char) : trimStart cs = inner ↔ TrimsStart cs inner := by
  constructor
  · rintro rfl
    refine ⟨⟨cs.takeWhile isBlank, forall_mem_takeWhile isBlank cs, ?_⟩, ?_⟩
    · exact List.takeWhile_append_dropWhile.symm
    · exact head?_dropWhile_eq_false isBlank cs
  · rintro ⟨⟨front, hfront, rfl⟩, hfirst⟩
    exact dropWhile_run hfront hfirst

theorem trimEnd_append_of_blanks {inner back : List Char} (hback : ∀ c ∈ back, isBlank c = true)
    (hlast : ∀ c ∈ inner.getLast?, isBlank c = false) : trimEnd (inner ++ back) = inner := by
  have hreverse : (back.reverse ++ inner.reverse).dropWhile isBlank = inner.reverse := by
    refine dropWhile_run (fun c hc => hback c (List.mem_reverse.1 hc)) fun c hc => hlast c ?_
    rwa [List.head?_reverse] at hc
  rw [trimEnd, List.reverse_append, hreverse, List.reverse_reverse]

/-- What is left of a text without the blanks at both ends, told as a relation. -/
theorem trim_eq_iff (cs inner : List Char) : trim cs = inner ↔ Trims cs inner := by
  constructor
  · rintro rfl
    obtain ⟨⟨front, hfront, hcs⟩, hfirst⟩ := (trimStart_eq_iff cs (trimStart cs)).1 rfl
    have hcut : trimStart cs = trim cs ++ ((trimStart cs).reverse.takeWhile isBlank).reverse := by
      rw [trim, trimEnd, ← List.reverse_append, List.takeWhile_append_dropWhile,
        List.reverse_reverse]
    refine ⟨⟨front, ((trimStart cs).reverse.takeWhile isBlank).reverse, hfront, ?_, ?_⟩, ?_, ?_⟩
    · exact fun c hc => forall_mem_takeWhile isBlank _ c (List.mem_reverse.1 hc)
    · rw [← hcut]
      exact hcs
    · intro c hc
      refine hfirst c ?_
      rw [hcut, List.head?_append, Option.mem_def.1 hc]
      rfl
    · intro c hc
      rw [trim, trimEnd, List.getLast?_reverse] at hc
      exact head?_dropWhile_eq_false isBlank _ c hc
  · rintro ⟨⟨front, back, hfront, hback, rfl⟩, hfirst, hlast⟩
    cases inner with
    | nil =>
        have hblank : ∀ c ∈ front ++ back, isBlank c = true :=
          List.forall_mem_append.2 ⟨hfront, hback⟩
        have hall : trimStart (front ++ back) = [] := by
          rw [trimStart, ← List.append_nil (front ++ back), List.dropWhile_append_of_pos hblank]
          rfl
        rw [List.nil_append, trim, hall]
        rfl
    | cons c inner =>
        have hstart : trimStart (front ++ (c :: inner ++ back)) = c :: inner ++ back :=
          dropWhile_run hfront hfirst
        rw [trim, hstart, trimEnd_append_of_blanks hback hlast]

/-! ### Entries -/

/-- The entries of a text between its commas; a text without comma is one entry. -/
inductive CommaSeparated : List Char → List (List Char) → Prop where
  | last {entry : List Char} (whole : ',' ∉ entry) : CommaSeparated entry [entry]
  | more {entry list : List Char} {entries : List (List Char)} (whole : ',' ∉ entry)
      (behind : CommaSeparated list entries) :
      CommaSeparated (entry ++ ',' :: list) (entry :: entries)

theorem pieces_of_commaSeparated {list : List Char} {entries : List (List Char)}
    (h : CommaSeparated list entries) : pieces (· = ',') list = entries := by
  have hone : ∀ {entry : List Char}, ',' ∉ entry → pieces (· = ',') entry = [entry] := by
    intro entry whole
    refine pieces_of_no_cut fun c hc => decide_eq_false ?_
    rintro rfl
    exact whole hc
  induction h with
  | last whole => exact hone whole
  | more whole _ ih =>
      rw [pieces_append_cut (decide_eq_true rfl), hone whole, ih]
      rfl

theorem CommaSeparated.cons {c : Char} {list entry : List Char} {entries : List (List Char)}
    (hc : c ≠ ',') (h : CommaSeparated list (entry :: entries)) :
    CommaSeparated (c :: list) ((c :: entry) :: entries) := by
  have hwhole : ∀ {cs : List Char}, ',' ∉ cs → ',' ∉ c :: cs := fun hcs hmem =>
    (List.mem_cons.1 hmem).elim (fun heq => hc heq.symm) hcs
  cases h with
  | last whole => exact .last (hwhole whole)
  | more whole behind => exact .more (hwhole whole) behind

/-- Every text has entries between its commas. -/
theorem commaSeparated_pieces (list : List Char) :
    CommaSeparated list (pieces (· = ',') list) := by
  induction list with
  | nil => exact .last (by simp)
  | cons c list ih =>
      by_cases hc : c = ','
      · have hempty : ',' ∉ ([] : List Char) := by simp
        simpa [pieces, hc] using CommaSeparated.more hempty ih
      · obtain ⟨entry, entries, hpieces⟩ :=
          List.exists_cons_of_ne_nil (pieces_ne_nil (· = ',') list)
        rw [hpieces] at ih
        simpa [pieces, hc, hpieces] using ih.cons hc

/-- The pieces between commas are the entries of the text, and no others are. -/
theorem pieces_comma_eq_iff (list : List Char) (entries : List (List Char)) :
    pieces (· = ',') list = entries ↔ CommaSeparated list entries :=
  ⟨fun h => h ▸ commaSeparated_pieces list, pieces_of_commaSeparated⟩

theorem toList_intercalate_comma (text next : String) (texts : List String) :
    (",".intercalate (text :: next :: texts)).toList =
      text.toList ++ ',' :: (",".intercalate (next :: texts)).toList := by
  rw [String.intercalate_cons_cons]
  simp

end Text

end AnnotatedEnv
