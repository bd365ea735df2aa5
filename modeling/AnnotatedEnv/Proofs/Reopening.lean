/-
Module: AnnotatedEnv.Proofs.Reopening
Purpose: When the text of a document is read as the document it was written from.
Main exports: Document.EditedFrom, Document.Reopens, Document.Traced, LineEnding.readAgain,
  Document.lines_toText_eq_iff, Document.ofText_toText, Document.Traced.reopens,
  FileHost.openFile_save, Document.saved_text_reopens_iff
What a text cannot show is lost on the way: an empty last line that is not ended, and a carriage
return that stands where a line end may follow.
-/
import AnnotatedEnv.Proofs.FileHost
import AnnotatedEnv.Proofs.RoundTrip

namespace AnnotatedEnv

open Text

/-! ### Documents and their texts -/

namespace Document

/-- The documents that patches make of a text, each instruction with a text of one line. -/
inductive EditedFrom (text : String) : Document → Prop where
  | opened : EditedFrom text (.ofText text)
  | patched {d e : Document} {p : Patch} (edited : EditedFrom text d)
      (oneLine : ∀ q ∈ p.instructions, OneLine q.text) (applied : p.applyTo d = .ok e) :
      EditedFrom text e

/-- The lines of a document can be replaced by a patch that is made for it. -/
theorem EditedFrom.replaceLines {text : String} {d : Document} (h : EditedFrom text d)
    {instructions : List LinePatch} (hrange : ∀ q ∈ instructions, q.index < d.size)
    (honeLine : ∀ q ∈ instructions, OneLine q.text) :
    EditedFrom text (d.withLines (Patch.replaceLines d.lines instructions)) :=
  .patched h honeLine ((Patch.applyTo_eq_ok_iff ⟨d.digest, instructions⟩ d _).2 ⟨rfl, hrange, rfl⟩)

/-- What a document is like whose text is read as the document itself. -/
structure Reopens (d : Document) : Prop where
  /-- In front of a bare line feed a carriage return would be taken for a part of the line end. -/
  noReturn : d.lineEnding = .lf → ∀ line ∈ d.lines, line.toList.getLast? ≠ some '\r'
  /-- A last line that is not ended stands for itself: it can be seen, and it does not end in what
  would be taken for a part of a line end. -/
  openEnd : d.trailingNewline = false → ∀ line, d.lines.getLast? = some line →
    line ≠ "" ∧ line.toList.getLast? ≠ some '\r'

/-- A document with the line ends of a text and as many lines, each of them a line of the text at
its place or one that a patch may have put there. -/
structure Traced (text : String) (d : Document) : Prop where
  withLines_eq : d = (ofText text).withLines d.lines
  length_eq : d.lines.length = (ofText text).size
  line : ∀ (i : Nat) (line : String), d.lines[i]? = some line →
    (ofText text).lines[i]? = some line ∨ OneLine line

/-- Patches keep the line ends of the text and the number of its lines. -/
theorem EditedFrom.traced {text : String} {d : Document} (h : EditedFrom text d) :
    d.Traced text := by
  induction h with
  | opened =>
      constructor
      · rfl
      · rfl
      · exact fun i line hline => Or.inl hline
  | patched edited oneLine applied ih =>
      next d e p =>
      obtain ⟨_, _, rfl⟩ := (Patch.applyTo_eq_ok_iff p d e).1 applied
      constructor
      · rw [ih.withLines_eq]
        rfl
      · exact (Patch.length_replaceLines _ _).trans ih.length_eq
      · intro i line hline
        rcases Patch.getElem?_replaceLines_cases d.lines p.instructions i with hold | ⟨q, hq, hnew⟩
        · exact ih.line i line (hold.symm.trans hline)
        · cases hline.symm.trans hnew
          exact Or.inr (oneLine q hq)

namespace Traced

variable {text : String} {d : Document}

/-- No line of such a document has a line feed. -/
theorem no_feed (h : d.Traced text) {line : String} (hline : line ∈ d.lines) :
    '\n' ∉ line.toList := by
  obtain ⟨i, hi⟩ := List.mem_iff_getElem?.1 hline
  rcases h.line i line hi with hold | hone
  · exact no_feed_of_mem_ofText (List.mem_of_getElem? hold)
  · exact hone.noFeed

theorem lineEnding_eq (h : d.Traced text) : d.lineEnding = (ofText text).lineEnding := by
  rw [h.withLines_eq]
  rfl

theorem trailingNewline_eq (h : d.Traced text) :
    d.trailingNewline = (ofText text).trailingNewline := by
  rw [h.withLines_eq]
  rfl

end Traced

end Document

/-! ### Lines that are read again -/

namespace LineEnding

variable {ending : LineEnding}

/-- A line as it is read when it was written with this end. -/
def readAgain (ending : LineEnding) (line : String) : String :=
  String.ofList (dropReturn (line.toList ++ ending.beforeFeed))

/-- Only in front of a bare line feed a line can lose a carriage return. -/
theorem readAgain_eq_self_iff {line : String} :
    ending.readAgain line = line ↔ (ending = .lf → line.toList.getLast? ≠ some '\r') := by
  rw [readAgain, ← String.toList_inj, String.toList_ofList]
  cases ending with
  | lf => simp [beforeFeed, dropReturn_eq_self_iff]
  | crlf => simp [beforeFeed, dropReturn_concat]

/-- Lines are read again as they are exactly if no return stands in front of a bare line feed. -/
theorem map_readAgain_eq_self_iff {lines : List String} :
    lines.map ending.readAgain = lines ↔
      (ending = .lf → ∀ line ∈ lines, line.toList.getLast? ≠ some '\r') := by
  have hmap : lines.map ending.readAgain = lines ↔
      ∀ line ∈ lines, ending.readAgain line = line := by
    conv_lhs => rhs; rw [← List.map_id lines]
    exact List.map_inj_left
  rw [hmap]
  constructor
  · intro hall hlf line hline
    exact readAgain_eq_self_iff.1 (hall line hline) hlf
  · intro hall line hline
    exact readAgain_eq_self_iff.2 fun hlf => hall hlf line hline

end LineEnding

namespace Document

variable {text : String} {d : Document}

/-- With the last line ended, all lines are read again one by one. -/
theorem lines_ofText_of_trailing (hfeeds : ∀ line ∈ d.lines, '\n' ∉ line.toList)
    (h : d.trailingNewline = true) :
    (ofText d.toText).lines = d.lines.map d.lineEnding.readAgain := by
  change (splitLines d.toText.toList).map String.ofList = _
  have hsplit := d.lineEnding.splitLines_endedLines_append d.lines []
  rw [List.append_nil, d.lineEnding.reread_of_no_feed hfeeds] at hsplit
  rw [toText_of_trailing h, hsplit]
  simp [splitLines, LineEnding.readAgain]

/-- An empty last line without an end is not read again. -/
theorem lines_ofText_of_open {front : List String} {last : String}
    (hfeeds : ∀ line ∈ d.lines, '\n' ∉ line.toList) (h : d.trailingNewline = false)
    (hlines : d.lines = front ++ [last]) :
    (ofText d.toText).lines = front.map d.lineEnding.readAgain ++
      if last = "" then [] else [String.ofList (dropReturn last.toList)] := by
  have hfront : ∀ line ∈ front, '\n' ∉ line.toList := fun line hline =>
    hfeeds line (by simp [hlines, hline])
  have hlast : '\n' ∉ last.toList := hfeeds last (by simp [hlines])
  change (splitLines d.toText.toList).map String.ofList = _
  rw [toText_of_open h hlines, d.lineEnding.splitLines_endedLines_append,
    d.lineEnding.reread_of_no_feed hfront, List.map_append]
  congr 1
  · simp [LineEnding.readAgain]
  · split
    · next hempty => simp [hempty, splitLines]
    · next hne =>
      rw [splitLines_of_no_feed (by simpa using hne) hlast]
      rfl

theorem reopens_of_no_lines (h : d.lines = []) : d.Reopens := by
  constructor
  · simp [h]
  · simp [h]

theorem reopens_iff_of_trailing (h : d.trailingNewline = true) :
    d.Reopens ↔ (d.lineEnding = .lf → ∀ line ∈ d.lines, line.toList.getLast? ≠ some '\r') := by
  constructor
  · exact fun hreopens => hreopens.noReturn
  · intro hreturns
    constructor
    · exact hreturns
    · simp [h]

theorem reopens_iff_of_open {front : List String} {last : String} (h : d.trailingNewline = false)
    (hlines : d.lines = front ++ [last]) :
    d.Reopens ↔
      (d.lineEnding = .lf → ∀ line ∈ front, line.toList.getLast? ≠ some '\r') ∧
        last ≠ "" ∧ last.toList.getLast? ≠ some '\r' := by
  have hlast : d.lines.getLast? = some last := by simp [hlines]
  constructor
  · intro hreopens
    constructor
    · intro hlf line hline
      exact hreopens.noReturn hlf line (by simp [hlines, hline])
    · exact hreopens.openEnd h last hlast
  · rintro ⟨hfront, hshows, hreturn⟩
    constructor
    · intro hlf line hline
      rw [hlines, List.mem_append, List.mem_singleton] at hline
      rcases hline with hline | rfl
      · exact hfront hlf line hline
      · exact hreturn
    · intro _ line hline
      obtain rfl : last = line := Option.some.inj (hlast.symm.trans hline)
      exact ⟨hshows, hreturn⟩

/-- The lines of a document are read again exactly if nothing is lost on the way. -/
theorem lines_toText_eq_iff (hfeeds : ∀ line ∈ d.lines, '\n' ∉ line.toList) :
    (ofText d.toText).lines = d.lines ↔ d.Reopens := by
  cases htrailing : d.trailingNewline with
  | true =>
      rw [lines_ofText_of_trailing hfeeds htrailing, LineEnding.map_readAgain_eq_self_iff,
        reopens_iff_of_trailing htrailing]
  | false =>
      cases hlines : d.lines using List.reverseRecOn with
      | nil =>
          have hempty : d.toText = "" := by simp [toText, hlines, htrailing, joinLines]
          rw [hempty]
          exact ⟨fun _ => reopens_of_no_lines hlines, fun _ => rfl⟩
      | append_singleton front last _ =>
          rw [lines_ofText_of_open hfeeds htrailing hlines, reopens_iff_of_open htrailing hlines]
          by_cases hempty : last = ""
          · -- The empty last line is not read again, so there is one line less.
            rw [if_pos hempty, List.append_nil]
            constructor
            · intro hsame
              have hlength := congrArg List.length hsame
              simp at hlength
            · exact fun hreopens => absurd hempty hreopens.2.1
          · have hreadLast : String.ofList (dropReturn last.toList) = last ↔
                last.toList.getLast? ≠ some '\r' := by
              rw [← String.toList_inj, String.toList_ofList, dropReturn_eq_self_iff]
            rw [if_neg hempty, List.append_singleton_inj, LineEnding.map_readAgain_eq_self_iff,
              hreadLast]
            simp [hempty]

/-- The text of a document that reopens is read with the line end it was written with. -/
theorem lineEnding_toText (htraced : d.Traced text) (hreopens : d.Reopens) :
    (ofText d.toText).lineEnding = d.lineEnding := by
  have hwritten : d.toText.toList = (List.zipWith
      (fun piece line => line.toList ++ d.lineEnding.endOf piece)
      (cutLines text.toList) d.lines).flatten := by
    rw [htraced.lineEnding_eq, ← toList_toText_withLines htraced.length_eq, ← htraced.withLines_eq]
  have hlength := htraced.length_eq
  rw [size_ofText] at hlength
  have hread : d.lineEnding = .ofTextAfter none (cutLines text.toList).flatten := by
    rw [htraced.lineEnding_eq, flatten_cutLines]
    rfl
  change LineEnding.ofTextAfter none d.toText.toList = d.lineEnding
  rw [hwritten]
  generalize cutLines text.toList = pieces, cut_cutLines text.toList = hcut at hlength hread ⊢
  cases hcut with
  | nil => rw [hread]; rfl
  | last noFeed =>
      next xs =>
      rw [List.flatten_singleton, LineEnding.ofTextAfter_of_no_feed noFeed] at hread
      obtain ⟨line, hline⟩ := List.length_eq_one_iff.1 hlength
      have hfeed : '\n' ∉ line.toList := htraced.no_feed (by simp [hline])
      rw [hline, hread, List.zipWith_cons_cons, List.zipWith_nil_left, List.flatten_singleton,
        LineEnding.endOf_of_no_feed noFeed, List.append_nil,
        LineEnding.ofTextAfter_of_no_feed hfeed]
  | line noFeed rest =>
      next xs pieces =>
      obtain ⟨line, lines, hlines⟩ := List.exists_cons_of_length_eq_add_one hlength
      have hmem : line ∈ d.lines := by simp [hlines]
      have hfeed : '\n' ∉ line.toList ++ d.lineEnding.beforeFeed := by
        have hline := htraced.no_feed hmem
        cases d.lineEnding <;> simp [LineEnding.beforeFeed, hline]
      rw [hlines, List.zipWith_cons_cons, LineEnding.endOf_feed, LineEnding.terminator_toList,
        ← List.append_assoc, flatten_cons_line, LineEnding.ofTextAfter_append_feed hfeed,
        Option.or_none]
      cases hending : d.lineEnding with
      | lf => simp [LineEnding.beforeFeed, hreopens.noReturn hending line hmem]
      | crlf => simp [LineEnding.beforeFeed]

/-- The text of a document that reopens is ended exactly if the document's last line is. -/
theorem trailingNewline_toText (htraced : d.Traced text) (hreopens : d.Reopens) :
    (ofText d.toText).trailingNewline = d.trailingNewline := by
  have hended := getLast?_toText_withLines htraced.length_eq (fun hopen line hline => by
    have htrailing : d.trailingNewline = false := by
      rw [htraced.trailingNewline_eq]
      exact decide_eq_false hopen
    exact ⟨(hreopens.openEnd htrailing line hline).1,
      htraced.no_feed (List.mem_of_getLast? hline)⟩)
  rw [← htraced.withLines_eq] at hended
  rw [htraced.trailingNewline_eq]
  exact decide_eq_decide.2 hended

/-- Of a document that reopens nothing is lost. -/
theorem ofText_toText (htraced : d.Traced text) (hreopens : d.Reopens) : ofText d.toText = d := by
  have hlines : (ofText d.toText).lines = d.lines :=
    (lines_toText_eq_iff fun line => htraced.no_feed).2 hreopens
  have hending := lineEnding_toText htraced hreopens
  have htrailing := trailingNewline_toText htraced hreopens
  rw [← withLines_self (ofText d.toText), withLines, hlines, hending, htrailing]
  exact withLines_self d

end Document

/-! ### Texts that come back -/

/-- A line that is ended in its document's way, or not at all, shows no carriage return at its end
unless one stands in front of its end. -/
theorem LineEnding.Ends.getLast?_bare {ending : LineEnding} {piece : List Char}
    (h : ending.Ends piece) (hend : ending = .lf ∨ piece.getLast? ≠ some '\n') :
    (bare piece).getLast? ≠ some '\r' := by
  cases piece using List.reverseRecOn with
  | nil => simp [bare, dropReturn]
  | append_singleton body c _ =>
      by_cases hc : c = '\n'
      · subst hc
        have hlf : ending = .lf := by simpa using hend
        have hbody : body.getLast? ≠ some '\r' := by simpa [Ends, hlf] using h
        rwa [bare_feed, dropReturn_eq_self_iff.2 hbody]
      · have hlast : (body ++ [c]).getLast? ≠ some '\n' := by simpa using hc
        have hreturn : (body ++ [c]).getLast? ≠ some '\r' := by simpa [Ends, hc] using h
        rwa [bare, if_neg hlast, dropReturn_eq_self_iff.2 hreturn]

/-- Of a text that comes back as it was, nothing can be lost but a last line that is not ended and
has been emptied. -/
theorem Document.Traced.reopens {text : String} {d : Document} (h : d.Traced text)
    (hback : (ofText text).toText = text)
    (hshows : d.trailingNewline = false → d.lines.getLast? ≠ some "") : d.Reopens := by
  have hends := (toText_ofText_iff_ends text).1 hback
  rw [← h.lineEnding_eq] at hends
  constructor
  · intro hlf line hline
    obtain ⟨i, hi⟩ := List.mem_iff_getElem?.1 hline
    rcases h.line i line hi with hold | hone
    · rw [lines_ofText, List.getElem?_map, Option.map_eq_some_iff] at hold
      obtain ⟨piece, hpiece, rfl⟩ := hold
      rw [String.toList_ofList]
      exact (hends piece (List.mem_of_getElem? hpiece)).getLast?_bare (Or.inl hlf)
    · exact hone.noReturn
  · intro hopen line hline
    constructor
    · rintro rfl
      exact hshows hopen hline
    · rw [List.getLast?_eq_getElem?] at hline
      rcases h.line _ line hline with hold | hone
      · have hsame : d.lines.length = (ofText text).lines.length := h.length_eq
        rw [hsame, ← List.getLast?_eq_getElem?, lines_ofText, List.getLast?_map,
          Option.map_eq_some_iff] at hold
        obtain ⟨piece, hpiece, rfl⟩ := hold
        have hfeed : piece.getLast? ≠ some '\n' := by
          rw [getLast?_of_getLast?_cutLines hpiece]
          rw [h.trailingNewline_eq] at hopen
          exact of_decide_eq_false hopen
        rw [String.toList_ofList]
        exact (hends piece (List.mem_of_getLast? hpiece)).getLast?_bare (Or.inr hfeed)
      · exact hone.noReturn

/-! ### Saved files -/

/-- A file that was saved is opened again with what its text is read as. -/
theorem FileHost.openFile_save {host : FileHost} {content : List UInt8}
    (hdirty : host.dirty = true) (hrooted : host.disk.Rooted)
    (hread : host.disk.read host.path = .ok content) (hsaved : (Host.save host).result = .ok ()) :
    ∃ reopened, openFile (Host.save host).host.disk host.path = .ok reopened ∧
      reopened.document = .ofText host.document.toText := by
  rcases save_of_dirty hdirty hrooted hread with
    ⟨e, _, hrefused⟩ | ⟨_, disk', hwrites, _, hhost⟩
  · rw [hrefused] at hsaved
    exact absurd hsaved (by simp)
  · rw [hhost]
    exact ⟨_, openFile_of_read hwrites.read, rfl⟩

namespace Document

/-- A document that patches made of a text is read again from its own text exactly if the text
shows all of it. -/
theorem saved_text_reopens_iff {text : String} {d : Document} (h : d.EditedFrom text) :
    ((ofText d.toText).lines = d.lines ∧ (ofText d.toText).digest = d.digest ∧
        (ofText d.toText).trailingNewline = d.trailingNewline ↔ d.Reopens) ∧
      (d.Reopens → ofText d.toText = d) ∧
      ((ofText text).toText = text → (d.trailingNewline = false → d.lines.getLast? ≠ some "") →
        d.Reopens) ∧
      ∀ (host : FileHost) (content : List UInt8), host.document = d → host.dirty = true →
        host.disk.Rooted → host.disk.read host.path = .ok content →
        (Host.save host).result = .ok () →
        ∃ reopened, FileHost.openFile (Host.save host).host.disk host.path = .ok reopened ∧
          (reopened.document = d ↔ d.Reopens) := by
  have htraced := h.traced
  have hlines : (ofText d.toText).lines = d.lines ↔ d.Reopens :=
    lines_toText_eq_iff fun line => htraced.no_feed
  have hsame : d.Reopens → ofText d.toText = d := ofText_toText htraced
  refine ⟨?_, hsame, htraced.reopens, ?_⟩
  · constructor
    · rintro ⟨hread, _⟩
      exact hlines.1 hread
    · intro hreopens
      rw [hsame hreopens]
      exact ⟨rfl, rfl, rfl⟩
  · rintro host content rfl hdirty hrooted hread hsaved
    obtain ⟨reopened, hopened, hdocument⟩ := FileHost.openFile_save hdirty hrooted hread hsaved
    refine ⟨reopened, hopened, ?_⟩
    rw [hdocument]
    constructor
    · intro hread
      exact hlines.1 (congrArg Document.lines hread)
    · exact hsame

/-- A file with line ends of both kinds and a line that ends in a return in front of its end, after
two patches. -/
theorem patched_twice_reopens :
    let text := "x\r\r\n# é\r\nA=1\n\r\nB"
    let disk : Disk := { home := ["w"], entries := [(["w", ".env"], .file (Text.utf8 text))] }
    ∃ d, EditedFrom text d ∧ d.lines = ["x\r", "# é", "A=4", "", "C=3"] ∧ ofText d.toText = d ∧
      let host : FileHost := { disk, path := ".env", document := d, dirty := true }
      ∃ reopened, FileHost.openFile (Host.save host).host.disk ".env" = .ok reopened ∧
        reopened.document = d := by
  intro text disk
  let once := (ofText text).withLines (Patch.replaceLines (ofText text).lines [⟨2, "A=2"⟩])
  let twice := once.withLines (Patch.replaceLines once.lines [⟨4, "C=3"⟩, ⟨2, "A=4"⟩])
  have honce : EditedFrom text once := EditedFrom.opened.replaceLines (by decide) (by decide)
  have htwice : EditedFrom text twice := honce.replaceLines (by decide) (by decide)
  have hreopens : twice.Reopens := ⟨by decide, by decide⟩
  have hrooted : disk.Rooted := Disk.rooted_singleton (by decide) _
  have hread : disk.read ".env" = .ok (Text.utf8 text) := rfl
  obtain ⟨_, hsame, _, hsaved⟩ := saved_text_reopens_iff htwice
  obtain ⟨reopened, hopened, hiff⟩ :=
    hsaved { disk, path := ".env", document := twice, dirty := true } _ rfl rfl hrooted hread
      (by decide)
  exact ⟨twice, htwice, by decide, hsame hreopens, reopened, hopened, hiff.2 hreopens⟩

/-- A bare line feed behind a return, and a last line that is nothing but a return: when a patch has
landed in between, both are read as less than was written. -/
theorem return_and_empty_line_are_lost :
    let text := "// @env-template\nA=1\n# b\r\r\n\r"
    ∃ d, EditedFrom text d ∧ d.lines = ["// @env-template", "A=2", "# b\r", ""] ∧
      (ofText d.toText).lines = ["// @env-template", "A=2", "# b"] ∧
      (ofText d.toText).trailingNewline ≠ d.trailingNewline := by
  intro text
  let d := (ofText text).withLines (Patch.replaceLines (ofText text).lines [⟨1, "A=2"⟩])
  have hedited : EditedFrom text d := EditedFrom.opened.replaceLines (by decide) (by decide)
  exact ⟨d, hedited, by decide, by decide, by decide⟩

end Document

end AnnotatedEnv
