/-
Module: AnnotatedEnv.Proofs.Lines
Purpose: Where lines begin and end in a text, and that a written assignment stays one line of it.
Main exports: Text.splitLines_append, Text.OneLine, Document.toText_of_append, OneLine.reread,
  Assignment.oneLine_render, Assignment.written_assignment_stays_one_line
A text is cut at its line feeds, so cutting what was joined gives the lines again as far as none
of them holds a line feed, and a carriage return at the end of a line is taken for a part of the
line end.
-/
import Mathlib.Data.List.Induction
import AnnotatedEnv.Document
import AnnotatedEnv.Proofs.Assignment

namespace AnnotatedEnv

namespace Text

/-! ### Pieces -/

/-- A cut separates the pieces in front of it from those behind. -/
theorem pieces_append_cut {p : Char → Bool} {c : Char} (hc : p c = true) (xs ys : List Char) :
    pieces p (xs ++ c :: ys) = pieces p xs ++ pieces p ys := by
  induction xs with
  | nil => simp [pieces, hc]
  | cons x xs ih =>
      rw [List.cons_append, pieces, pieces, ih]
      split
      · rfl
      · obtain ⟨w, ws, hpieces⟩ := List.exists_cons_of_ne_nil (pieces_ne_nil p xs)
        rw [hpieces]
        rfl

theorem pieces_of_no_cut {p : Char → Bool} {xs : List Char} (h : ∀ c ∈ xs, p c = false) :
    pieces p xs = [xs] := by
  induction xs with
  | nil => rfl
  | cons x xs ih =>
      have hx : p x = false := h x (List.mem_cons_self ..)
      rw [pieces, ih fun c hc => h c (List.mem_cons_of_mem x hc)]
      simp [hx]

theorem pieces_of_no_feed {xs : List Char} (h : '\n' ∉ xs) : pieces (· = '\n') xs = [xs] :=
  pieces_of_no_cut fun c hc => by
    have hne : c ≠ '\n' := fun heq => h (heq ▸ hc)
    simp [hne]

/-! ### Returns -/

theorem dropReturn_concat (xs : List Char) : dropReturn (xs ++ ['\r']) = xs := by
  simp [dropReturn]

/-- Nothing is dropped exactly if there is no carriage return at the end. -/
theorem dropReturn_eq_self_iff {xs : List Char} :
    dropReturn xs = xs ↔ xs.getLast? ≠ some '\r' := by
  cases xs using List.reverseRecOn with
  | nil => simp [dropReturn]
  | append_singleton xs x _ =>
      by_cases hx : x = '\r'
      · simp [dropReturn, hx]
      · simp [dropReturn, hx]

theorem dropReturn_append_return_iff {xs : List Char} :
    dropReturn xs ++ ['\r'] = xs ↔ xs.getLast? = some '\r' := by
  cases xs using List.reverseRecOn with
  | nil => simp [dropReturn]
  | append_singleton xs x _ =>
      by_cases hx : x = '\r'
      · simp [dropReturn, hx]
      · simp [dropReturn, hx]

/-- Dropping a carriage return brings no character in. -/
theorem not_mem_dropReturn {c : Char} {xs : List Char} (h : c ∉ xs) : c ∉ dropReturn xs := by
  rw [dropReturn]
  split
  · exact fun hmem => h ((List.dropLast_sublist xs).subset hmem)
  · exact h

/-- A text with a line feed is cut behind it, and what stands behind is cut on its own. -/
theorem splitLines_append (xs ys : List Char) :
    splitLines (xs ++ '\n' :: ys) = (pieces (· = '\n') xs).map dropReturn ++ splitLines ys := by
  have hne : (xs ++ '\n' :: ys).isEmpty = false := by simp
  rw [splitLines, hne]
  simp only [Bool.false_eq_true, if_false]
  cases ys using List.reverseRecOn with
  | nil => simp [splitLines]
  | append_singleton ys y _ =>
      have hlast : (xs ++ '\n' :: (ys ++ [y])).getLast? = some y := by
        rw [← List.cons_append, ← List.append_assoc, List.getLast?_concat]
      have hys : (ys ++ [y]).isEmpty = false := by simp
      rw [splitLines, hys, hlast, List.getLast?_concat]
      simp only [Bool.false_eq_true, if_false]
      split
      · rw [← List.cons_append, ← List.append_assoc, List.dropLast_concat, List.dropLast_concat,
          pieces_append_cut (by decide), List.map_append]
      · rw [pieces_append_cut (by decide), List.map_append]

/-- A text without a line feed is one line. -/
theorem splitLines_of_no_feed {xs : List Char} (hne : xs ≠ []) (h : '\n' ∉ xs) :
    splitLines xs = [dropReturn xs] := by
  have hlast : xs.getLast? ≠ some '\n' := fun hlast => h (List.mem_of_getLast? hlast)
  have hempty : xs.isEmpty = false := by simpa using hne
  rw [splitLines, hempty]
  simp only [Bool.false_eq_true, if_false, if_neg hlast, pieces_of_no_feed h, List.map_cons,
    List.map_nil]

/-! ### Texts of one line -/

/-- A text that is one line, whichever way it is ended: it holds no line feed, and no carriage
return stands where a line end may follow. -/
structure OneLine (line : String) : Prop where
  noFeed : '\n' ∉ line.toList
  noReturn : line.toList.getLast? ≠ some '\r'

instance (line : String) : Decidable (OneLine line) :=
  decidable_of_iff ('\n' ∉ line.toList ∧ line.toList.getLast? ≠ some '\r')
    ⟨fun h => ⟨h.1, h.2⟩, fun h => ⟨h.noFeed, h.noReturn⟩⟩

/-- A text that is one line loses nothing at its end. -/
theorem OneLine.dropReturn_eq {line : String} (h : OneLine line) :
    dropReturn line.toList = line.toList :=
  dropReturn_eq_self_iff.2 h.noReturn

end Text

open Text

/-! ### Joined lines -/

/-- The characters of some lines, each ended. -/
def LineEnding.endedLines (ending : LineEnding) (lines : List String) : List Char :=
  lines.flatMap fun line => line.toList ++ ending.terminator.toList

/-- What stands in front of the line feed that ends a line. -/
def LineEnding.beforeFeed : LineEnding → List Char
  | .lf => []
  | .crlf => ['\r']

namespace LineEnding

variable {ending : LineEnding}

/-- Both line ends close with a line feed. -/
theorem terminator_toList (ending : LineEnding) :
    ending.terminator.toList = ending.beforeFeed ++ ['\n'] := by
  cases ending <;> decide

theorem endedLines_cons (line : String) (lines : List String) :
    ending.endedLines (line :: lines) =
      line.toList ++ ending.terminator.toList ++ ending.endedLines lines := rfl

theorem endedLines_append (front back : List String) :
    ending.endedLines (front ++ back) = ending.endedLines front ++ ending.endedLines back :=
  List.flatMap_append

/-- An ended line that is followed by anything is read as it would be alone. -/
theorem splitLines_ended (line : String) (rest : List Char) :
    splitLines (line.toList ++ ending.terminator.toList ++ rest) =
      (pieces (· = '\n') (line.toList ++ ending.beforeFeed)).map dropReturn ++ splitLines rest := by
  have hcut : line.toList ++ ending.terminator.toList ++ rest =
      (line.toList ++ ending.beforeFeed) ++ '\n' :: rest := by
    rw [terminator_toList]
    simp
  rw [hcut, splitLines_append]

/-- An ended line is split off, less a return in front of its end. -/
theorem splitLines_ended_of_no_feed {line : String} (h : '\n' ∉ line.toList) (rest : List Char) :
    splitLines (line.toList ++ ending.terminator.toList ++ rest) =
      dropReturn (line.toList ++ ending.beforeFeed) :: splitLines rest := by
  have hbefore : '\n' ∉ line.toList ++ ending.beforeFeed := by
    cases ending <;> simp [beforeFeed, h]
  rw [splitLines_ended, pieces_of_no_feed hbefore]
  rfl

/-- A text of one line is read as it is, with either line end. -/
theorem splitLines_ended_of_oneLine {line : String} (h : OneLine line) (rest : List Char) :
    splitLines (line.toList ++ ending.terminator.toList ++ rest) =
      line.toList :: splitLines rest := by
  rw [splitLines_ended_of_no_feed h.noFeed]
  cases ending with
  | lf => rw [beforeFeed, List.append_nil, h.dropReturn_eq]
  | crlf => rw [beforeFeed, dropReturn_concat]

/-- The lines that reading the ended lines `front` gives, whatever stands behind them. -/
def reread (ending : LineEnding) (front : List String) : List (List Char) :=
  front.flatMap fun line =>
    (pieces (· = '\n') (line.toList ++ ending.beforeFeed)).map dropReturn

/-- Ended lines are split off one by one. -/
theorem splitLines_endedLines_append (front : List String) (rest : List Char) :
    splitLines (ending.endedLines front ++ rest) = ending.reread front ++ splitLines rest := by
  induction front with
  | nil => rfl
  | cons line front ih =>
      rw [endedLines_cons, List.append_assoc, splitLines_ended, ih, reread, reread,
        List.flatMap_cons, List.append_assoc]

theorem reread_of_no_feed {front : List String} (h : ∀ line ∈ front, '\n' ∉ line.toList) :
    ending.reread front = front.map fun line => dropReturn (line.toList ++ ending.beforeFeed) := by
  induction front with
  | nil => rfl
  | cons line front ih =>
      have hline : '\n' ∉ line.toList ++ ending.beforeFeed := by
        have hmem := h line (List.mem_cons_self ..)
        cases ending <;> simp [beforeFeed, hmem]
      have hrest := ih fun l hl => h l (List.mem_cons_of_mem line hl)
      rw [reread, List.flatMap_cons, pieces_of_no_feed hline]
      exact congrArg (_ :: ·) hrest

/-- Texts of one line are read again as they are. -/
theorem reread_of_oneLine {front : List String} (h : ∀ line ∈ front, OneLine line) :
    ending.reread front = front.map String.toList := by
  rw [reread_of_no_feed fun line hline => (h line hline).noFeed]
  refine List.map_congr_left fun line hline => ?_
  cases ending with
  | lf => rw [beforeFeed, List.append_nil, (h line hline).dropReturn_eq]
  | crlf => rw [beforeFeed, dropReturn_concat]

end LineEnding

namespace Document

/-- The lines but the last one are ended. -/
theorem joinLines_concat (ending : LineEnding) (front : List String) (last : String) :
    (joinLines ending.terminator (front ++ [last])).toList =
      ending.endedLines front ++ last.toList := by
  induction front with
  | nil => simp [joinLines, LineEnding.endedLines]
  | cons line front ih =>
      have hne : front ++ [last] ≠ [] := by simp
      rw [joinLines] at ih ⊢
      rw [List.cons_append, String.intercalate_cons_of_ne_nil hne, String.toList_append,
        String.toList_append, ih, LineEnding.endedLines_cons]
      simp only [List.append_assoc]

/-- With the last line ended, the text is the ended lines. -/
theorem toText_of_trailing {d : Document} (h : d.trailingNewline = true) :
    d.toText.toList = d.lineEnding.endedLines d.lines := by
  rw [toText, h]
  cases hlines : d.lines using List.reverseRecOn with
  | nil => simp [joinLines, LineEnding.endedLines]
  | append_singleton front last _ =>
      have hne : (front ++ [last]).isEmpty = false := by simp
      simp only [hne, Bool.not_false, Bool.and_self, if_true]
      rw [String.toList_append, joinLines_concat, LineEnding.endedLines_append]
      simp [LineEnding.endedLines]

/-- Otherwise the last line stands behind the ended ones as it is. -/
theorem toText_of_open {d : Document} (h : d.trailingNewline = false) {front : List String}
    {last : String} (hlines : d.lines = front ++ [last]) :
    d.toText.toList = d.lineEnding.endedLines front ++ last.toList := by
  rw [toText, h, hlines]
  simp only [Bool.false_and, Bool.false_eq_true, if_false]
  exact joinLines_concat d.lineEnding front last

/-- A line stands behind the ended lines before it, and at the end of the text or in front of its
own end. -/
theorem toText_of_append {d : Document} {front back : List String} {line : String}
    (hlines : d.lines = front ++ line :: back) :
    d.toText.toList = d.lineEnding.endedLines front ++ line.toList ∨
      ∃ rest, d.toText.toList = d.lineEnding.endedLines front ++
        (line.toList ++ d.lineEnding.terminator.toList ++ rest) := by
  cases htrailing : d.trailingNewline with
  | true =>
      right
      refine ⟨d.lineEnding.endedLines back, ?_⟩
      rw [toText_of_trailing htrailing, hlines, LineEnding.endedLines_append,
        LineEnding.endedLines_cons]
  | false =>
      cases back using List.reverseRecOn with
      | nil =>
          left
          exact toText_of_open htrailing hlines
      | append_singleton back last _ =>
          right
          refine ⟨d.lineEnding.endedLines back ++ last.toList, ?_⟩
          have hlast : d.lines = (front ++ line :: back) ++ [last] := by rw [hlines]; simp
          rw [toText_of_open htrailing hlast, LineEnding.endedLines_append,
            LineEnding.endedLines_cons]
          simp

end Document

namespace Text

/-- A text of one line is read again as one line wherever it stands in a document, and the lines
before it are read as they would be without it. -/
theorem OneLine.reread {line : String} (h : OneLine line) (hne : line ≠ "") {d : Document}
    {front back : List String} (hlines : d.lines = front ++ line :: back) :
    ∃ behind, splitLines d.toText.toList =
      d.lineEnding.reread front ++ line.toList :: behind := by
  rcases Document.toText_of_append hlines with htext | ⟨rest, htext⟩
  · have hchars : line.toList ≠ [] := by simpa using hne
    refine ⟨[], ?_⟩
    rw [htext, LineEnding.splitLines_endedLines_append, splitLines_of_no_feed hchars h.noFeed,
      h.dropReturn_eq]
  · refine ⟨splitLines rest, ?_⟩
    rw [htext, LineEnding.splitLines_endedLines_append, LineEnding.splitLines_ended_of_oneLine h]

end Text

/-! ### Written assignments -/

namespace Assignment

theorem isKeyChar_feed : isKeyChar '\n' = false := by decide +kernel

/-- No key has a line feed. -/
theorem IsKey.no_feed {key : String} (h : IsKey key) : '\n' ∉ key.toList := fun hmem =>
  absurd (h.chars _ hmem) (by simp [isKeyChar_feed])

/-- Taking escapes out makes no text longer. -/
theorem length_unescape?_le {body value : List Char} (h : unescape? body = some value) :
    value.length ≤ body.length := by
  fun_induction unescape? body generalizing value with
  | case1 => exact absurd h (by simp)
  | case2 cs => simp_all
  | case3 => exact absurd h (by simp)
  | case4 c cs m hm ih =>
      obtain ⟨rest, hrest, rfl⟩ := Option.map_eq_some_iff.1 h
      have := ih hrest
      simp only [List.length_cons]
      omega
  | case5 c cs hm ih =>
      obtain ⟨rest, hrest, rfl⟩ := Option.map_eq_some_iff.1 h
      have := ih hrest
      simp only [List.length_cons]
      omega
  | case6 c cs _ _ _ ih =>
      obtain ⟨rest, hrest, rfl⟩ := Option.map_eq_some_iff.1 h
      have := ih hrest
      simp only [List.length_cons]
      omega

theorem length_untilQuote?_le {quote : Char} {body value : List Char}
    (h : untilQuote? quote body = some value) : value.length ≤ body.length := by
  induction body generalizing value with
  | nil => exact absurd h (by simp [untilQuote?])
  | cons c cs ih =>
      rw [untilQuote?] at h
      split at h
      · obtain rfl := Option.some.inj h
        exact Nat.zero_le _
      · obtain ⟨rest, hrest, rfl⟩ := Option.map_eq_some_iff.1 h
        have := ih hrest
        simp only [List.length_cons]
        omega

/-- A bare value does not end in a carriage return. -/
theorem bareValue_getLast?_ne_return (cs : List Char) :
    (bareValue cs).getLast? ≠ some '\r' := by
  intro hlast
  rw [bareValue, trim, trimEnd, List.getLast?_reverse] at hlast
  have hblank := List.head?_dropWhile_not isBlank (trimStart (cs.takeWhile (· ≠ '#'))).reverse
  rw [hlast] at hblank
  exact absurd hblank (by decide)

/-- No value is read as itself if it ends in a carriage return: a bare one is trimmed, and a quoted
one is shorter than what it is read from. -/
theorem readValue_ne_of_return {value : List Char} (h : value.getLast? = some '\r') :
    readValue value ≠ value := by
  intro hread
  have hbare : ∀ cs, bareValue cs ≠ value := fun cs heq =>
    bareValue_getLast?_ne_return cs (heq ▸ h)
  have htrim : (trimStart value).length ≤ value.length :=
    (List.dropWhile_sublist isBlank).length_le
  have hquoted : ∀ {quote : Char} {body : List Char} {found : Option (List Char)},
      trimStart value = quote :: body → (∀ v, found = some v → v.length ≤ body.length) →
        found.getD (bareValue (trimStart value)) ≠ value := by
    intro quote body found hraw hshort heq
    cases found with
    | none => exact hbare _ heq
    | some v =>
        have hv := hshort v rfl
        obtain rfl : v = value := heq
        rw [hraw, List.length_cons] at htrim
        omega
  simp only [readValue] at hread
  split at hread
  · next hraw => exact hquoted hraw (fun v => length_unescape?_le) hread
  · next hraw => exact hquoted hraw (fun v => length_untilQuote?_le) hread
  · next hraw => exact hquoted hraw (fun v => length_untilQuote?_le) hread
  · exact hbare _ hread

theorem toList_plainLine (key value : String) :
    (plainLine key value).toList = key.toList ++ '=' :: value.toList := by
  simp [plainLine]

/-- A plain line that reads back is one line. -/
theorem oneLine_plainLine {key value : String} (hkey : IsKey key)
    (h : parse? (plainLine key value) = some ⟨key, value⟩) : OneLine (plainLine key value) := by
  rw [parse?, toList_plainLine, split?_key_eq hkey.nonempty hkey.chars] at h
  by_cases hfeed : '\n' ∈ value.toList
  · rw [if_pos hfeed] at h
    exact absurd h (by simp)
  · rw [if_neg hfeed, Option.map_some, Option.some.injEq, Assignment.mk.injEq] at h
    have hvalue : readValue value.toList = value.toList := by
      rw [← String.ofList_inj, String.ofList_toList]
      exact h.2
    refine ⟨?_, ?_⟩
    · rw [toList_plainLine]
      simp [hkey.no_feed, hfeed]
    · rw [toList_plainLine, List.getLast?_append]
      cases hlast : value.toList using List.reverseRecOn with
      | nil => simp
      | append_singleton front last _ =>
          intro hreturn
          rw [← List.cons_append, List.getLast?_concat] at hreturn
          refine readValue_ne_of_return ?_ hvalue
          rw [hlast, List.getLast?_concat]
          simpa using hreturn

/-- A quoted line is one line, whatever the value. -/
theorem oneLine_quotedLine {key : String} (hkey : IsKey key) (value : String) :
    OneLine (quotedLine key value) := by
  have hchars : (quotedLine key value).toList =
      (key.toList ++ '=' :: '"' :: value.toList.flatMap escapeChar) ++ ['"'] := by
    simp [quotedLine]
  refine ⟨?_, ?_⟩
  · have hescaped : '\n' ∉ value.toList.flatMap escapeChar := by
      rw [List.mem_flatMap]
      rintro ⟨c, _, hc⟩
      exact newline_not_mem_escapeChar c hc
    rw [hchars]
    simp [hkey.no_feed, hescaped]
  · rw [hchars, List.getLast?_concat]
    simp

/-- A written assignment is one line, whatever its value. -/
theorem oneLine_render {key : String} (hkey : IsKey key) (value : String) :
    OneLine (render key value) := by
  rw [render]
  split
  · next hplain => exact oneLine_plainLine hkey hplain
  · exact oneLine_quotedLine hkey value

/-- A written assignment reads back as its key and value, and it is one line: joined with other
lines into a text, it is found again as one line when the text is cut, behind as many lines as
before unless one of these held a line feed. -/
theorem written_assignment_stays_one_line {key : String} (hkey : IsKey key) (value : String) :
    parse? (render key value) = some ⟨key, value⟩ ∧
      '\n' ∉ (render key value).toList ∧
      (render key value).toList.getLast? ≠ some '\r' ∧
      ∀ (d : Document) (front back : List String), d.lines = front ++ render key value :: back →
        ∃ front' back', (Document.ofText d.toText).lines = front' ++ render key value :: back' ∧
          ((∀ line ∈ front, '\n' ∉ line.toList) → front'.length = front.length) ∧
          ((∀ line ∈ front, OneLine line) → front' = front) := by
  have hparse := parse?_render hkey value
  have hone := oneLine_render hkey value
  refine ⟨hparse, hone.noFeed, hone.noReturn, fun d front back hlines => ?_⟩
  have hne : render key value ≠ "" := by
    intro hempty
    have hnone : parse? "" = none := by decide
    rw [hempty, hnone] at hparse
    exact absurd hparse (by simp)
  obtain ⟨behind, hread⟩ := hone.reread hne hlines
  refine ⟨(d.lineEnding.reread front).map String.ofList, behind.map String.ofList, ?_, ?_, ?_⟩
  · change (splitLines d.toText.toList).map String.ofList = _
    rw [hread, List.map_append, List.map_cons, String.ofList_toList]
  · intro hfront
    rw [LineEnding.reread_of_no_feed hfront, List.length_map, List.length_map]
  · intro hfront
    rw [LineEnding.reread_of_oneLine hfront, List.map_map]
    simp [Function.comp_def]

/-- A value of control characters, quotes and a closing return, behind a line that ends in one. -/
theorem control_characters_stay_one_line :
    IsKey "a.B-1" ∧
      parse? (render "a.B-1" "x\ny \"#\\\r") = some ⟨"a.B-1", "x\ny \"#\\\r"⟩ ∧
      (Document.ofText (Document.mk' ["é\r", render "a.B-1" "x\ny \"#\\\r", "\n"] .crlf
        false).toText).lines[1]? = some (render "a.B-1" "x\ny \"#\\\r") := by
  have hkey : IsKey "a.B-1" := by
    refine ⟨by decide, fun c hc => ?_⟩
    have hcases : c = 'a' ∨ c = '.' ∨ c = 'B' ∨ c = '-' ∨ c = '1' := by simpa using hc
    rcases hcases with rfl | rfl | rfl | rfl | rfl
    · decide +kernel
    · simp [isKeyChar]
    · decide +kernel
    · simp [isKeyChar]
    · decide +kernel
  obtain ⟨hparse, _, _, hdocument⟩ :=
    written_assignment_stays_one_line hkey "x\ny \"#\\\r"
  obtain ⟨front, back, hlines, hlength, _⟩ := hdocument
    (Document.mk' ["é\r", render "a.B-1" "x\ny \"#\\\r", "\n"] .crlf false) ["é\r"] ["\n"] rfl
  have hone : front.length = 1 := hlength (by simp)
  refine ⟨hkey, hparse, ?_⟩
  rw [hlines, List.getElem?_append_right (Nat.le_of_eq hone), hone]
  rfl

end Assignment

end AnnotatedEnv
