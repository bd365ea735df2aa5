/-
Module: AnnotatedEnv.Proofs.LineEnds
Purpose: Lines with their ends, and what becomes of them when some lines of a text are replaced.
Main exports: Text.cutLines, Text.lineAt, Text.Cut, Text.splitLines_eq, LineEnding.reended,
  LineEnding.Ends, Document.toList_toText_withLines, Document.lineAt_withLines, Patch.Rewrites,
  Patch.rewrites
A document knows one line end, that of the first line, and writes all lines with it. A line that a
patch leaves alone is therefore the same characters again if it was ended like the first one, and
gets that line's end otherwise.
-/
import Mathlib.Data.List.Basic
import AnnotatedEnv.Proofs.Lines
import AnnotatedEnv.Proofs.Patch

namespace AnnotatedEnv

namespace Text

/-! ### Lines with their ends -/

/-- Cut a text behind every line feed, so that each line keeps its end. -/
def cutLines : List Char → List (List Char)
  | [] => []
  | c :: cs =>
    if c = '\n' then ['\n'] :: cutLines cs
    else
      match cutLines cs with
      | [] => [[c]]
      | line :: lines => (c :: line) :: lines

/-- The line at an index with its end. Behind the last line there is nothing. -/
def lineAt (text : String) (i : Nat) : List Char := (cutLines text.toList)[i]?.getD []

/-- A line without its end. -/
def bare (line : List Char) : List Char :=
  dropReturn (if line.getLast? = some '\n' then line.dropLast else line)

theorem bare_feed (xs : List Char) : bare (xs ++ ['\n']) = dropReturn xs := by simp [bare]

/-- Pieces that end behind their only line feed; the last one may have none. -/
inductive Cut : List (List Char) → Prop where
  | nil : Cut []
  | last {xs : List Char} (noFeed : '\n' ∉ xs) : Cut [xs]
  | line {xs : List Char} {pieces : List (List Char)} (noFeed : '\n' ∉ xs) (rest : Cut pieces) :
      Cut ((xs ++ ['\n']) :: pieces)

/-- The cut lines of a text make it up. -/
theorem flatten_cutLines (cs : List Char) : (cutLines cs).flatten = cs := by
  induction cs with
  | nil => rfl
  | cons c cs ih =>
      rw [cutLines]
      split
      · next hfeed => rw [List.flatten_cons, ih, hfeed]; rfl
      · split
        · next hnil => rw [hnil] at ih; rw [← ih]; rfl
        · next hcons => rw [hcons] at ih; rw [← ih]; rfl

theorem nil_not_mem_cutLines (cs : List Char) : [] ∉ cutLines cs := by
  induction cs with
  | nil => simp [cutLines]
  | cons c cs ih =>
      rw [cutLines]
      split
      · simpa using ih
      · split
        · simp
        · next hcons =>
          rw [hcons, List.mem_cons, not_or] at ih
          simpa using ih.2

/-- A text ends as its last line does. -/
theorem getLast?_of_getLast?_cutLines {cs line : List Char}
    (h : (cutLines cs).getLast? = some line) : line.getLast? = cs.getLast? := by
  obtain ⟨front, hfront⟩ := List.getLast?_eq_some_iff.1 h
  have hne : line ≠ [] := fun hnil =>
    nil_not_mem_cutLines cs (hnil ▸ List.mem_of_getLast? h)
  have htext := flatten_cutLines cs
  rw [hfront, List.flatten_append, List.flatten_singleton] at htext
  rw [← htext, List.getLast?_append_of_ne_nil _ hne]

/-- Every text is cut behind its line feeds and nowhere else. -/
theorem cut_cutLines (cs : List Char) : Cut (cutLines cs) := by
  induction cs with
  | nil => exact .nil
  | cons c cs ih =>
      rw [cutLines]
      split
      · change Cut (([] ++ ['\n']) :: cutLines cs)
        exact .line (by simp) ih
      · next hfeed =>
        split
        · exact .last (by simpa using Ne.symm hfeed)
        · next hcons =>
          rw [hcons] at ih
          cases ih with
          | last noFeed => exact .last (by simp [noFeed, Ne.symm hfeed])
          | line noFeed rest =>
              next pieces xs =>
              change Cut ((c :: xs ++ ['\n']) :: pieces)
              exact .line (by simp [noFeed, Ne.symm hfeed]) rest

theorem cutLines_of_no_feed {xs : List Char} (hne : xs ≠ []) (h : '\n' ∉ xs) :
    cutLines xs = [xs] := by
  induction xs with
  | nil => exact absurd rfl hne
  | cons x xs ih =>
      rw [List.mem_cons, not_or] at h
      rw [cutLines, if_neg (Ne.symm h.1)]
      cases xs with
      | nil => rfl
      | cons y ys => rw [ih (by simp) h.2]

/-- The first line ends at the first line feed. -/
theorem cutLines_append_feed {xs : List Char} (h : '\n' ∉ xs) (ys : List Char) :
    cutLines (xs ++ '\n' :: ys) = (xs ++ ['\n']) :: cutLines ys := by
  induction xs with
  | nil => rfl
  | cons x xs ih =>
      rw [List.mem_cons, not_or] at h
      rw [List.cons_append, cutLines, if_neg (Ne.symm h.1), ih h.2]
      rfl

theorem flatten_cons_line (xs : List Char) (pieces : List (List Char)) :
    ((xs ++ ['\n']) :: pieces).flatten = xs ++ '\n' :: pieces.flatten := by simp

namespace Cut

variable {pieces : List (List Char)}

/-- Pieces are found again in the text that they make up. -/
theorem getElem?_cutLines_flatten (h : Cut pieces) (i : Nat) :
    (cutLines pieces.flatten)[i]?.getD [] = pieces[i]?.getD [] := by
  induction h generalizing i with
  | nil => rfl
  | last noFeed =>
      next xs =>
      rw [List.flatten_singleton]
      cases xs with
      | nil => cases i <;> rfl
      | cons x xs => rw [cutLines_of_no_feed (by simp) noFeed]
  | line noFeed rest ih =>
      rw [flatten_cons_line, cutLines_append_feed noFeed]
      cases i with
      | zero => rfl
      | succ i => exact ih i

/-- The lines of a text are its pieces without their ends. -/
theorem splitLines_flatten (h : Cut pieces) (hne : [] ∉ pieces) :
    splitLines pieces.flatten = pieces.map bare := by
  induction h with
  | nil => rfl
  | last noFeed =>
      next xs =>
      have hxs : xs ≠ [] := by simpa [eq_comm] using hne
      have hlast : xs.getLast? ≠ some '\n' := fun hlast => noFeed (List.mem_of_getLast? hlast)
      rw [List.flatten_singleton, splitLines_of_no_feed hxs noFeed, List.map_singleton, bare,
        if_neg hlast]
  | line noFeed rest ih =>
      next xs pieces =>
      rw [flatten_cons_line, splitLines_append, pieces_of_no_feed noFeed,
        ih fun hmem => hne (List.mem_cons_of_mem _ hmem), List.map_cons, List.map_cons, bare_feed]
      rfl

/-- No line feed is left in a line without its end. -/
theorem not_mem_bare (h : Cut pieces) {piece : List Char} (hpiece : piece ∈ pieces) :
    '\n' ∉ bare piece := by
  induction h with
  | nil => exact absurd hpiece (by simp)
  | last noFeed =>
      rw [List.mem_singleton.1 hpiece, bare,
        if_neg fun hlast => noFeed (List.mem_of_getLast? hlast)]
      exact not_mem_dropReturn noFeed
  | line noFeed rest ih =>
      rcases List.mem_cons.1 hpiece with rfl | hpiece
      · rw [bare_feed]
        exact not_mem_dropReturn noFeed
      · exact ih hpiece

end Cut

/-- Splitting a text is cutting it into lines and dropping their ends. -/
theorem splitLines_eq (cs : List Char) : splitLines cs = (cutLines cs).map bare := by
  have hlines := (cut_cutLines cs).splitLines_flatten (nil_not_mem_cutLines cs)
  rwa [flatten_cutLines] at hlines

end Text

open Text

/-! ### Ending lines anew -/

namespace LineEnding

variable {ending : LineEnding}

/-- The end that a line gets: none if it had none. -/
def endOf (ending : LineEnding) (line : List Char) : List Char :=
  if line.getLast? = some '\n' then ending.terminator.toList else []

/-- A line with its end replaced. -/
def reended (ending : LineEnding) (line : List Char) : List Char := bare line ++ ending.endOf line

/-- Whether a line is ended in this way, or not ended and without a carriage return that could be
taken for a part of an end. -/
def Ends (ending : LineEnding) (line : List Char) : Prop :=
  if line.getLast? = some '\n' then line.dropLast.getLast? = some '\r' ↔ ending = .crlf
  else line.getLast? ≠ some '\r'

instance (ending : LineEnding) (line : List Char) : Decidable (ending.Ends line) :=
  inferInstanceAs (Decidable (if line.getLast? = some '\n' then
    line.dropLast.getLast? = some '\r' ↔ ending = .crlf else line.getLast? ≠ some '\r'))

theorem endOf_feed (xs : List Char) : ending.endOf (xs ++ ['\n']) = ending.terminator.toList := by
  simp [endOf]

/-- A last line that was not ended gets no end. -/
theorem endOf_of_no_feed {xs : List Char} (h : '\n' ∉ xs) : ending.endOf xs = [] :=
  if_neg fun hlast => h (List.mem_of_getLast? hlast)

/-- Ending a line anew changes nothing exactly if it was ended in this way. -/
theorem reended_eq_self_iff {line : List Char} : ending.reended line = line ↔ ending.Ends line := by
  cases line using List.reverseRecOn with
  | nil => simp [reended, bare, endOf, dropReturn, Ends]
  | append_singleton body c _ =>
      by_cases hc : c = '\n'
      · subst hc
        have hends : ending.Ends (body ++ ['\n']) ↔
            (body.getLast? = some '\r' ↔ ending = .crlf) := by simp [Ends]
        rw [reended, bare_feed, endOf_feed, terminator_toList, hends, ← List.append_assoc,
          List.append_cancel_right_eq]
        cases ending with
        | lf => simpa [beforeFeed] using dropReturn_eq_self_iff
        | crlf => simpa [beforeFeed] using dropReturn_append_return_iff
      · have hlast : (body ++ [c]).getLast? ≠ some '\n' := by simpa using hc
        rw [reended, bare, endOf, if_neg hlast, if_neg hlast, List.append_nil, Ends, if_neg hlast]
        exact dropReturn_eq_self_iff

end LineEnding

namespace Text.Cut

variable {ending : LineEnding} {pieces : List (List Char)}

/-- Pieces stay pieces if new lines take the place of the old ones, with an end where one was. -/
theorem zipWith (h : Cut pieces) {lines : List String}
    (hlines : ∀ line ∈ lines, '\n' ∉ line.toList) :
    Cut (List.zipWith (fun piece line => line.toList ++ ending.endOf piece) pieces lines) := by
  induction h generalizing lines with
  | nil => exact .nil
  | last noFeed =>
      cases lines with
      | nil => exact .nil
      | cons line lines =>
          have hline := hlines line (List.mem_cons_self ..)
          simp only [List.zipWith_cons_cons, List.zipWith_nil_left,
            LineEnding.endOf_of_no_feed noFeed, List.append_nil]
          exact .last hline
  | line noFeed rest ih =>
      cases lines with
      | nil => exact .nil
      | cons line lines =>
          have hline : '\n' ∉ line.toList ++ ending.beforeFeed := by
            have hmem := hlines line (List.mem_cons_self ..)
            cases ending <;> simp [LineEnding.beforeFeed, hmem]
          simp only [List.zipWith_cons_cons, LineEnding.endOf_feed, LineEnding.terminator_toList]
          rw [← List.append_assoc]
          exact .line hline (ih fun l hl => hlines l (List.mem_cons_of_mem line hl))

/-- Joining new lines in the place of pieces ends them as the pieces are ended. -/
theorem flatten_zipWith (h : Cut pieces) (hne : [] ∉ pieces) {lines : List String}
    (hlength : lines.length = pieces.length) :
    (List.zipWith (fun piece line => line.toList ++ ending.endOf piece) pieces lines).flatten =
      if pieces.flatten.getLast? = some '\n' then ending.endedLines lines
      else (joinLines ending.terminator lines).toList := by
  induction h generalizing lines with
  | nil =>
      obtain rfl := List.length_eq_zero_iff.1 hlength
      simp [joinLines]
  | last noFeed =>
      obtain ⟨line, rfl⟩ := List.length_eq_one_iff.1 hlength
      rw [List.flatten_singleton, if_neg fun hlast => noFeed (List.mem_of_getLast? hlast)]
      simp [LineEnding.endOf_of_no_feed noFeed, joinLines]
  | line noFeed rest ih =>
      next xs pieces =>
      obtain ⟨line, lines, rfl⟩ := List.exists_cons_of_length_eq_add_one hlength
      have hrest := ih (fun hmem => hne (List.mem_cons_of_mem _ hmem)) (by simpa using hlength)
      rw [List.zipWith_cons_cons, List.flatten_cons, LineEnding.endOf_feed, hrest,
        flatten_cons_line]
      cases pieces with
      | nil =>
          obtain rfl : lines = [] := by simpa using hlength
          simp [LineEnding.endedLines, joinLines]
      | cons piece pieces =>
          have hpiece : piece ≠ [] := by
            rintro rfl
            exact hne (by simp)
          have hlast : (xs ++ '\n' :: (piece :: pieces).flatten).getLast? =
              (piece :: pieces).flatten.getLast? := by
            have hbehind : (piece :: pieces).flatten ≠ [] := by simp [hpiece]
            rw [List.append_cons, List.getLast?_append_of_ne_nil _ hbehind]
          have hlines : lines ≠ [] := by
            rintro rfl
            exact absurd hlength (by simp)
          rw [hlast]
          split
          · rw [LineEnding.endedLines_cons]
          · rw [joinLines, joinLines, String.intercalate_cons_of_ne_nil hlines,
              String.toList_append, String.toList_append]

end Text.Cut

/-! ### Texts with other lines -/

namespace Document

variable {text : String} {lines : List String}

/-- The lines of a document are the cut lines of its text without their ends. -/
theorem lines_ofText (text : String) :
    (ofText text).lines = (cutLines text.toList).map fun line => String.ofList (bare line) := by
  change (splitLines text.toList).map String.ofList = _
  rw [splitLines_eq, List.map_map]
  rfl

/-- No line that is read from a text has a line feed. -/
theorem no_feed_of_mem_ofText {line : String} (h : line ∈ (ofText text).lines) :
    '\n' ∉ line.toList := by
  rw [lines_ofText] at h
  obtain ⟨piece, hpiece, rfl⟩ := List.mem_map.1 h
  rw [String.toList_ofList]
  exact (cut_cutLines _).not_mem_bare hpiece

theorem size_ofText (text : String) : (ofText text).size = (cutLines text.toList).length := by
  rw [size, lines_ofText, List.length_map]

/-- As many other lines are ended as the lines of the text were, all with its line end. -/
theorem toList_toText_withLines (hlength : lines.length = (ofText text).size) :
    ((ofText text).withLines lines).toText.toList =
      (List.zipWith (fun piece line => line.toList ++ (ofText text).lineEnding.endOf piece)
        (cutLines text.toList) lines).flatten := by
  rw [size_ofText] at hlength
  rw [(cut_cutLines _).flatten_zipWith (nil_not_mem_cutLines _) hlength, flatten_cutLines]
  split
  · next hlast =>
    have htrailing : ((ofText text).withLines lines).trailingNewline = true := decide_eq_true hlast
    exact toText_of_trailing htrailing
  · next hlast =>
    have htrailing : ((ofText text).withLines lines).trailingNewline = false :=
      decide_eq_false hlast
    rw [toText, htrailing]
    rfl

/-- In the text of a document with new lines each of them stands where the old one stood, ended if
that was. -/
theorem lineAt_withLines (hlength : lines.length = (ofText text).size)
    (hlines : ∀ line ∈ lines, '\n' ∉ line.toList) (i : Nat) :
    lineAt ((ofText text).withLines lines).toText i =
      (lines[i]?.map fun line =>
        line.toList ++ (ofText text).lineEnding.endOf (lineAt text i)).getD [] := by
  rw [lineAt, toList_toText_withLines hlength,
    ((cut_cutLines _).zipWith hlines).getElem?_cutLines_flatten, List.getElem?_zipWith, lineAt]
  rw [size_ofText] at hlength
  rcases Nat.lt_or_ge i lines.length with hlt | hge
  · rw [List.getElem?_eq_getElem hlt, List.getElem?_eq_getElem (hlength ▸ hlt)]
    rfl
  · rw [List.getElem?_eq_none hge, List.getElem?_eq_none (hlength ▸ hge)]
    rfl

/-- The text is ended exactly if it was, unless its last line has become empty. -/
theorem getLast?_toText_withLines (hlength : lines.length = (ofText text).size)
    (hlast : text.toList.getLast? ≠ some '\n' →
      ∀ line, lines.getLast? = some line → line ≠ "" ∧ '\n' ∉ line.toList) :
    ((ofText text).withLines lines).toText.toList.getLast? = some '\n' ↔
      text.toList.getLast? = some '\n' := by
  by_cases hfeed : text.toList.getLast? = some '\n'
  · refine iff_of_true ?_ hfeed
    have htrailing : ((ofText text).withLines lines).trailingNewline = true := decide_eq_true hfeed
    rw [toText_of_trailing htrailing]
    change ((ofText text).lineEnding.endedLines lines).getLast? = some '\n'
    cases lines using List.reverseRecOn with
    | nil =>
        rw [size_ofText, eq_comm, List.length_nil, List.length_eq_zero_iff] at hlength
        have hempty := flatten_cutLines text.toList
        rw [hlength] at hempty
        rw [← hempty] at hfeed
        exact absurd hfeed (by simp)
    | append_singleton front last _ =>
        rw [LineEnding.endedLines_append, LineEnding.endedLines_cons, LineEnding.terminator_toList]
        simp [LineEnding.endedLines]
  · refine iff_of_false ?_ hfeed
    have htrailing : ((ofText text).withLines lines).trailingNewline = false :=
      decide_eq_false hfeed
    cases lines using List.reverseRecOn with
    | nil => simp [toText, withLines, mk', joinLines]
    | append_singleton front last _ =>
        obtain ⟨hne, hline⟩ := hlast hfeed last List.getLast?_concat
        have hchars : last.toList ≠ [] := by simpa using hne
        rw [toText_of_open htrailing rfl, List.getLast?_append_of_ne_nil _ hchars]
        exact fun h => hline (List.mem_of_getLast? h)

end Document

namespace Patch

end Patch

end AnnotatedEnv
