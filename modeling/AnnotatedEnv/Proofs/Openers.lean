/-
Module: AnnotatedEnv.Proofs.Openers
Purpose: What uncommenting leaves of a line.
Main exports: openers, Uncomments, uncomment_eq_iff, uncomment_comment
-/
import AnnotatedEnv.Proofs.Cuts

namespace AnnotatedEnv

open Text

/-- Some comment openers, one behind another. -/
def openers : Nat → List Char
  | 0 => []
  | n + 1 => '/' :: '/' :: openers n

/-- The content of a line, which has no blank in front unless an opener is in front of that. -/
inductive Uncomments : (line content : List Char) → Prop where
  | plain {front content : List Char} (front_blank : ∀ c ∈ front, isBlank c = true)
      (first : ∀ c ∈ content.head?, isBlank c = false)
      (no_opener : ∀ rest, content ≠ '/' :: '/' :: rest) : Uncomments (front ++ content) content
  /-- One space behind the openers is dropped with them. -/
  | spaced {front content : List Char} {n : Nat} (front_blank : ∀ c ∈ front, isBlank c = true)
      (some_opener : 0 < n) : Uncomments (front ++ (openers n ++ ' ' :: content)) content
  | bare {front content : List Char} {n : Nat} (front_blank : ∀ c ∈ front, isBlank c = true)
      (some_opener : 0 < n) (no_opener : ∀ rest, content ≠ '/' :: '/' :: rest)
      (no_space : ∀ rest, content ≠ ' ' :: rest) :
      Uncomments (front ++ (openers n ++ content)) content

theorem eq_slash_of_mem_openers {n : Nat} {b : Char} (h : b ∈ openers n) : b = '/' := by
  induction n with
  | zero => exact absurd h (by simp [openers])
  | succ n ih =>
      simp only [openers, List.mem_cons] at h
      rcases h with rfl | rfl | h
      · rfl
      · rfl
      · exact ih h

/-- Any number of comment openers is dropped. -/
theorem dropOpeners_openers (n : Nat) (cs : List Char) :
    dropOpeners (openers n ++ cs) = dropOpeners cs := by
  induction n with
  | zero => rfl
  | succ n ih => simpa [openers, dropOpeners] using ih

theorem dropOpeners_eq_self {cs : List Char} (h : ∀ rest, cs ≠ '/' :: '/' :: rest) :
    dropOpeners cs = cs := by
  unfold dropOpeners
  split
  · next rest => exact absurd rfl (h rest)
  · rfl

/-- What is dropped is a number of openers, and behind them there is none. -/
theorem exists_openers (cs : List Char) :
    ∃ n, cs = openers n ++ dropOpeners cs ∧ ∀ rest, dropOpeners cs ≠ '/' :: '/' :: rest := by
  fun_induction dropOpeners cs with
  | case1 cs ih =>
      obtain ⟨n, hcut, hstop⟩ := ih
      refine ⟨n + 1, ?_, hstop⟩
      rw [openers, List.cons_append, List.cons_append, ← hcut]
  | case2 cs hstop => exact ⟨0, rfl, hstop⟩

/-- Openers are no blanks, so trimming ends in front of them. -/
theorem trimStart_openers {front : List Char} (hfront : ∀ c ∈ front, isBlank c = true) {n : Nat}
    (hn : 0 < n) (behind : List Char) :
    trimStart (front ++ (openers n ++ behind)) = openers n ++ behind := by
  obtain ⟨m, rfl⟩ := Nat.exists_eq_succ_of_ne_zero (Nat.pos_iff_ne_zero.1 hn)
  exact dropWhile_run hfront (head?_cons_eq_false (by decide) _)

/-- A comment line is uncommented to its content. -/
theorem uncomment_of_uncomments {line : String} {content : List Char}
    (h : Uncomments line.toList content) : uncomment line = String.ofList content := by
  generalize hline : line.toList = cs at h
  rw [uncomment, hline]
  cases h with
  | @plain front _ front_blank first no_opener =>
      have htrim : trimStart (front ++ content) = content := dropWhile_run front_blank first
      rw [htrim, dropOpeners_eq_self no_opener]
      split
      · exact absurd (first ' ' rfl) (by decide)
      · rfl
  | spaced front_blank some_opener =>
      have hstop : ∀ rest, ' ' :: content ≠ '/' :: '/' :: rest := by simp
      rw [trimStart_openers front_blank some_opener, dropOpeners_openers,
        dropOpeners_eq_self hstop]
      rfl
  | bare front_blank some_opener no_opener no_space =>
      rw [trimStart_openers front_blank some_opener, dropOpeners_openers,
        dropOpeners_eq_self no_opener]
      split
      · next rest => exact absurd rfl (no_space rest)
      · rfl

/-- Uncommenting leaves the content of a line. -/
theorem uncomment_eq_iff (line content : String) :
    uncomment line = content ↔ Uncomments line.toList content.toList := by
  constructor
  · rintro rfl
    obtain ⟨⟨front, hfront, hline⟩, hfirst⟩ := (trimStart_eq_iff line.toList _).1 rfl
    obtain ⟨n, hcut, hstop⟩ := exists_openers (trimStart line.toList)
    rw [hline, hcut, uncomment]
    cases n with
    | zero =>
        rw [openers, List.nil_append] at hcut ⊢
        rw [← hcut]
        split
        · next rest hspace =>
          rw [hspace] at hfirst
          exact absurd (hfirst ' ' rfl) (by decide)
        · rw [String.toList_ofList]
          exact .plain hfront hfirst (hcut ▸ hstop)
    | succ n =>
        split
        · next rest hspace =>
          rw [hspace, String.toList_ofList]
          exact .spaced hfront (Nat.succ_pos n)
        · next hspace =>
          rw [String.toList_ofList]
          exact .bare hfront (Nat.succ_pos n) hstop hspace
  · intro h
    rw [uncomment_of_uncomments h, String.ofList_toList]

/-- A text behind one opener and a space is left as it is. -/
theorem uncomment_comment (text : String) : uncomment ("// " ++ text) = text := by
  have hcut : ("// " ++ text).toList = [] ++ (openers 1 ++ ' ' :: text.toList) := by
    rw [String.toList_append]
    rfl
  rw [uncomment_eq_iff, hcut]
  exact .spaced (List.forall_mem_nil _) Nat.one_pos

end AnnotatedEnv
