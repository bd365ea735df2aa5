/-
Module: AnnotatedEnv.Proofs.RoundTrip
Purpose: Which texts are written again as they were read.
Main exports: LineEnding.EndsFeeds, Text.Cut.forall_ends_iff, LineEnding.ofTextAfter_append_feed,
  Document.toText_ofText_iff_ends, Document.toText_ofText_iff
A document keeps one line end and drops what it takes for a part of one, so a text comes back if
its line feeds all have the same character in front and nothing at its end could be dropped.
-/
import AnnotatedEnv.Proofs.LineEnds

namespace AnnotatedEnv

open Text

namespace Text

/-- A carriage return at the end of what a line feed opens is one at the end of the text behind. -/
theorem getLast?_append_feed (xs ys : List Char) :
    (xs ++ '\n' :: ys).getLast? = some '\r' ↔ ys.getLast? = some '\r' := by
  cases ys using List.reverseRecOn with
  | nil => simp
  | append_singleton ys y _ =>
      rw [← List.cons_append, ← List.append_assoc, List.getLast?_concat, List.getLast?_concat]

/-- A line feed of a text is its first one or stands behind it. -/
theorem append_feed_eq_iff {xs ys front back : List Char} (h : '\n' ∉ xs) :
    xs ++ '\n' :: ys = front ++ '\n' :: back ↔
      front = xs ∧ back = ys ∨ ∃ between, front = xs ++ '\n' :: between ∧
        ys = between ++ '\n' :: back := by
  induction xs generalizing front with
  | nil =>
      cases front with
      | nil => simp [eq_comm]
      | cons c front => simp [eq_comm, and_comm]
  | cons x xs ih =>
      simp only [List.mem_cons, not_or] at h
      cases front with
      | nil => simp [Ne.symm h.1]
      | cons c front =>
          simp only [List.cons_append, List.cons.injEq, ih h.2]
          constructor
          · rintro ⟨rfl, ⟨rfl, rfl⟩ | ⟨between, rfl, rfl⟩⟩
            · exact Or.inl ⟨⟨rfl, rfl⟩, rfl⟩
            · exact Or.inr ⟨between, ⟨rfl, rfl⟩, rfl⟩
          · rintro (⟨⟨rfl, rfl⟩, rfl⟩ | ⟨between, ⟨rfl, rfl⟩, rfl⟩)
            · exact ⟨rfl, Or.inl ⟨rfl, rfl⟩⟩
            · exact ⟨rfl, Or.inr ⟨between, rfl, rfl⟩⟩

end Text

/-! ### Texts with one kind of line end -/

namespace LineEnding

variable {ending : LineEnding}

/-- Every line feed of a text belongs to a line end of this kind. -/
def EndsFeeds (ending : LineEnding) (cs : List Char) : Prop :=
  ∀ front back, cs = front ++ '\n' :: back → (front.getLast? = some '\r' ↔ ending = .crlf)

theorem endsFeeds_of_no_feed {cs : List Char} (h : '\n' ∉ cs) : ending.EndsFeeds cs := by
  rintro front back rfl
  simp at h

theorem endsFeeds_append_feed {xs : List Char} (h : '\n' ∉ xs) (ys : List Char) :
    ending.EndsFeeds (xs ++ '\n' :: ys) ↔
      (xs.getLast? = some '\r' ↔ ending = .crlf) ∧ ending.EndsFeeds ys := by
  constructor
  · intro hends
    constructor
    · exact hends xs ys rfl
    · rintro front back rfl
      rw [← hends (xs ++ '\n' :: front) back (by simp), getLast?_append_feed]
  · rintro ⟨hfirst, hrest⟩ front back hcut
    rcases (append_feed_eq_iff h).1 hcut with ⟨rfl, rfl⟩ | ⟨between, rfl, hbetween⟩
    · exact hfirst
    · rw [getLast?_append_feed]
      exact hrest between back hbetween

theorem ofTextAfter_of_no_feed {previous : Option Char} {xs : List Char} (h : '\n' ∉ xs) :
    ofTextAfter previous xs = lf := by
  induction xs generalizing previous with
  | nil => rfl
  | cons x xs ih =>
      simp only [List.mem_cons, not_or] at h
      rw [ofTextAfter, if_neg (Ne.symm h.1), ih h.2]

/-- The first line feed tells the line end of a text. -/
theorem ofTextAfter_append_feed {previous : Option Char} {xs : List Char} (h : '\n' ∉ xs)
    (ys : List Char) :
    ofTextAfter previous (xs ++ '\n' :: ys) =
      if (xs.getLast?.or previous) = some '\r' then crlf else lf := by
  induction xs generalizing previous with
  | nil => rfl
  | cons x xs ih =>
      simp only [List.mem_cons, not_or] at h
      rw [List.cons_append, ofTextAfter, if_neg (Ne.symm h.1), ih h.2]
      cases xs <;> simp [List.getLast?_cons]

/-- A text whose line feeds all belong to one kind of line end is read as a text of this kind. -/
theorem EndsFeeds.lineEnding {text : String} (h : ending.EndsFeeds text.toList) :
    (Document.ofText text).lineEnding.EndsFeeds text.toList := by
  by_cases hfeed : '\n' ∈ text.toList
  · obtain ⟨front, back, hcut, hfront⟩ := List.eq_append_cons_of_mem hfeed
    have hfirst : front.getLast? = some '\r' ↔ ending = .crlf := h front back hcut
    have hread : (Document.ofText text).lineEnding = ending := by
      change ofTextAfter none text.toList = ending
      rw [hcut, ofTextAfter_append_feed hfront, Option.or_none]
      cases ending with
      | lf => simpa using hfirst
      | crlf => simpa using hfirst
    rwa [hread]
  · exact endsFeeds_of_no_feed hfeed

end LineEnding

namespace Text.Cut

variable {ending : LineEnding} {pieces : List (List Char)}

/-- All lines are ended in one way exactly if all line feeds belong to it and no carriage return is
left over at the end. -/
theorem forall_ends_iff (h : Cut pieces) :
    (∀ piece ∈ pieces, ending.Ends piece) ↔
      pieces.flatten.getLast? ≠ some '\r' ∧ ending.EndsFeeds pieces.flatten := by
  induction h with
  | nil => simp [LineEnding.endsFeeds_of_no_feed]
  | last noFeed =>
      next xs =>
      have hlast : xs.getLast? ≠ some '\n' := fun hlast => noFeed (List.mem_of_getLast? hlast)
      simp [LineEnding.Ends, hlast, LineEnding.endsFeeds_of_no_feed noFeed]
  | line noFeed rest ih =>
      next xs pieces =>
      have hends : ending.Ends (xs ++ ['\n']) ↔ (xs.getLast? = some '\r' ↔ ending = .crlf) := by
        simp [LineEnding.Ends]
      rw [List.forall_mem_cons, ih, hends, flatten_cons_line,
        LineEnding.endsFeeds_append_feed noFeed]
      simp only [ne_eq, getLast?_append_feed]
      constructor
      · rintro ⟨hfirst, hlast, hrest⟩
        exact ⟨hlast, hfirst, hrest⟩
      · rintro ⟨hlast, hfirst, hrest⟩
        exact ⟨hfirst, hlast, hrest⟩

end Text.Cut

/-! ### Texts that come back -/

namespace Document

/-- A text is written as it was read exactly if all its lines are ended as the first one is. -/
theorem toText_ofText_iff_ends (text : String) :
    (ofText text).toText = text ↔
      ∀ piece ∈ cutLines text.toList, (ofText text).lineEnding.Ends piece := by
  have hself : (ofText text).withLines (ofText text).lines = ofText text := withLines_self _
  constructor
  · intro hsame piece hpiece
    obtain ⟨i, hi, rfl⟩ := List.getElem_of_mem hpiece
    have hat := @lineAt_withLines text _ rfl (fun line => no_feed_of_mem_ofText) i
    rw [hself, hsame, lineAt, List.getElem?_eq_getElem hi, lines_ofText, List.getElem?_map,
      List.getElem?_eq_getElem hi] at hat
    rw [← LineEnding.reended_eq_self_iff]
    simpa [LineEnding.reended] using hat.symm
  · intro hends
    have htext := @toList_toText_withLines text _ rfl
    rw [hself, lines_ofText, List.zipWith_map_right, List.zipWith_self] at htext
    have hmap : (cutLines text.toList).map
        (fun piece => (String.ofList (bare piece)).toList ++ (ofText text).lineEnding.endOf piece) =
          cutLines text.toList := by
      conv_rhs => rw [← List.map_id (cutLines text.toList)]
      refine List.map_congr_left fun piece hpiece => ?_
      rw [String.toList_ofList]
      exact LineEnding.reended_eq_self_iff.2 (hends piece hpiece)
    rw [hmap, flatten_cutLines] at htext
    exact String.toList_inj.1 htext

/-- A text is written as it was read exactly if it does not end in a carriage return and its line
feeds either all stand behind a carriage return or none of them does. -/
theorem toText_ofText_iff (text : String) :
    (ofText text).toText = text ↔
      text.toList.getLast? ≠ some '\r' ∧
        ((∀ front back, text.toList = front ++ '\n' :: back → front.getLast? = some '\r') ∨
          ∀ front back, text.toList = front ++ '\n' :: back → front.getLast? ≠ some '\r') := by
  have hends : (∀ piece ∈ cutLines text.toList, (ofText text).lineEnding.Ends piece) ↔
      text.toList.getLast? ≠ some '\r' ∧ (ofText text).lineEnding.EndsFeeds text.toList := by
    rw [(cut_cutLines text.toList).forall_ends_iff, flatten_cutLines]
  have hcrlf : LineEnding.crlf.EndsFeeds text.toList ↔
      ∀ front back, text.toList = front ++ '\n' :: back → front.getLast? = some '\r' := by
    simp [LineEnding.EndsFeeds]
  have hlf : LineEnding.lf.EndsFeeds text.toList ↔
      ∀ front back, text.toList = front ++ '\n' :: back → front.getLast? ≠ some '\r' := by
    simp [LineEnding.EndsFeeds]
  rw [toText_ofText_iff_ends, hends, ← hcrlf, ← hlf]
  refine and_congr_right fun _ => ?_
  constructor
  · intro hread
    cases hending : (ofText text).lineEnding with
    | lf => exact Or.inr (hending ▸ hread)
    | crlf => exact Or.inl (hending ▸ hread)
  · rintro (hall | hnone)
    · exact hall.lineEnding
    · exact hnone.lineEnding

end Document

end AnnotatedEnv
