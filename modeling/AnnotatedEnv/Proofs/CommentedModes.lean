/-
Module: AnnotatedEnv.Proofs.CommentedModes
Purpose: The assignments of a preset are read alike whether they are commented out or not.
Main exports: CommentsOut, findMarker?_behind_opening, Assignment.parse?_uncomment,
  Sections.mapLines, Document.CommentsPresets, Loaded.presets_read_alike_commented_out
What stands in front of an assignment, blanks and slashes, is no marker and hides none, since its
first character is neither a slash nor an `@`.
-/
import Mathlib.Data.List.Nodup
import Mathlib.Data.List.Pairwise
import AnnotatedEnv.Proofs.LineForm
import AnnotatedEnv.Proofs.Marker
import AnnotatedEnv.Proofs.Openers
import AnnotatedEnv.Proofs.Partition

namespace AnnotatedEnv

open Text

/-! ### Commented lines -/

/-- A line behind one or more comment openers, with blanks around them. -/
inductive CommentsOut (line : String) : String → Prop where
  | behind {front gap : List Char} {n : Nat} (front_blank : ∀ c ∈ front, isBlank c = true)
      (some_opener : 0 < n) (gap_blank : ∀ c ∈ gap, isBlank c = true) :
      CommentsOut line (String.ofList (front ++ (openers n ++ (gap ++ line.toList))))

/-! ### In front of an assignment -/

/-- A character that a line can begin with which is no comment and no marker. -/
structure Assignment.Opens (c : Char) : Prop where
  not_blank : isBlank c = false
  not_slash : c ≠ '/'
  not_at : c ≠ '@'

theorem Assignment.opens_of_isKeyChar {c : Char} (h : isKeyChar c = true) : Opens c where
  not_blank := isBlank_eq_false_of_isKeyChar h
  not_slash := by
    rintro rfl
    exact absurd h (by decide +kernel)
  not_at := by
    rintro rfl
    exact absurd h (by decide +kernel)

/-- A line that assigns has blanks in front of its first key character. -/
theorem Assignment.exists_opening {line : String} (h : (parse? line).isSome = true) :
    ∃ indent c rest, (∀ b ∈ indent, isBlank b = true) ∧ Opens c ∧
      line.toList = indent ++ c :: rest := by
  obtain ⟨a, ha⟩ := Option.isSome_iff_exists.1 h
  obtain ⟨⟨key, rest⟩, hsplit, _⟩ := Option.map_eq_some_iff.1 ha
  obtain ⟨form, hline, _, _⟩ := (split?_eq_some_iff _ _ _).1 hsplit
  rw [← hline, LineForm.text, LineForm.opening, LineForm.keyed]
  cases form.exporting with
  | none =>
      obtain ⟨k, ks, hkey⟩ := List.exists_cons_of_ne_nil form.key_ne_nil
      have hk : isKeyChar k = true := form.key_chars k (by simp [hkey])
      rw [hkey]
      exact ⟨form.indent, k, _, form.indent_blank, opens_of_isKeyChar hk, rfl⟩
  | some blanks =>
      have he : isKeyChar 'e' = true := by decide +kernel
      exact ⟨form.indent, 'e', _, form.indent_blank, opens_of_isKeyChar he, rfl⟩

/-! ### Markers and content -/

namespace Assignment

variable {c : Char} {front : List Char}

/-- Blanks and slashes do not begin a marker if the text behind them does not. -/
theorem markerHere?_eq_none (hc : Opens c) (hfront : ∀ b ∈ front, (isBlank b || b = '/') = true)
    (rest : List Char) : markerHere? (front ++ c :: rest) = none := by
  refine (markerHere?_eq_none_iff _).2 fun behind hbegins => hc.not_at ?_
  obtain ⟨blanks, hblanks, hcut⟩ := hbegins.reads
  -- an `@` behind slashes and blanks would be the first character that is neither
  have hopening : ∀ b ∈ '/' :: '/' :: blanks, (isBlank b || b = '/') = true := by
    simpa using fun b hb => Or.inl (hblanks b hb)
  have hfirst : (isBlank c || c = '/') = false := by simp [hc.not_blank, hc.not_slash]
  have hat : (isBlank '@' || ('@' : Char) = '/') = false := by decide
  have hrest : c :: rest = '@' :: behind :=
    (run_unique hfront (head?_cons_eq_false hfirst rest) hopening
      (head?_cons_eq_false hat behind) hcut).2
  exact (List.cons.inj hrest).1

/-- Whatever blanks and slashes stand in front, the first marker is found behind them. -/
theorem findMarker?_behind_opening (hc : Opens c)
    (hfront : ∀ b ∈ front, (isBlank b || b = '/') = true) (fresh : Bool) (rest : List Char) :
    findMarker? fresh (front ++ c :: rest) = findMarker? false rest := by
  induction front generalizing fresh with
  | nil =>
      have hnone := markerHere?_eq_none hc hfront rest
      rw [List.nil_append] at hnone ⊢
      rw [findMarker?, hnone, hc.not_blank, Option.none_or, ite_self]
  | cons b front ih =>
      have hnone := markerHere?_eq_none hc hfront rest
      have hrest := ih (List.forall_mem_cons.1 hfront).2 (isBlank b)
      rw [List.cons_append] at hnone ⊢
      rw [findMarker?, hnone, hrest, Option.none_or, ite_self]

/-- A character that opens something is found behind any blanks. -/
theorem trimStart_behind_blanks (hc : Opens c) (hfront : ∀ b ∈ front, isBlank b = true)
    (rest : List Char) : trimStart (front ++ c :: rest) = c :: rest :=
  dropWhile_run hfront (head?_cons_eq_false hc.not_blank rest)

/-- Of what stands behind the openers only a blank is dropped. -/
theorem trimStart_uncomment {line : String} {n : Nat} (hc : Opens c)
    (hfront : ∀ b ∈ front, isBlank b = true) {rest : List Char}
    (hline : trimStart line.toList = openers n ++ (front ++ c :: rest)) :
    trimStart (uncomment line).toList = c :: rest := by
  have hstop : ∀ behind, front ++ c :: rest ≠ '/' :: '/' :: behind := by
    intro behind hcut
    cases front with
    | nil => exact hc.not_slash (List.cons.inj hcut).1
    | cons b front =>
        obtain rfl : b = '/' := (List.cons.inj hcut).1
        exact absurd (hfront '/' (by simp)) (by decide)
  rw [uncomment, hline, dropOpeners_openers, dropOpeners_eq_self hstop]
  split
  · next cs hcut =>
    rw [String.toList_ofList]
    cases front with
    | nil =>
        obtain rfl : c = ' ' := (List.cons.inj hcut).1
        exact absurd hc.not_blank (by decide)
    | cons b front =>
        rw [← (List.cons.inj hcut).2]
        exact trimStart_behind_blanks hc (List.forall_mem_cons.1 hfront).2 rest
  · rw [String.toList_ofList]
    exact trimStart_behind_blanks hc hfront rest

/-- Blanks in front of a line do not count. -/
theorem parse?_of_trimStart_eq {line other : String}
    (h : trimStart line.toList = trimStart other.toList) : parse? line = parse? other := by
  rw [parse?, parse?, split?, split?, h]

/-! ### Lines that assign -/

variable {line commented : String}

/-- Uncommenting a line that assigns changes nothing of what it assigns. -/
theorem parse?_uncomment (h : (parse? line).isSome = true) :
    parse? (uncomment line) = parse? line := by
  obtain ⟨indent, c, rest, hindent, hc, hline⟩ := exists_opening h
  have htrim : trimStart line.toList = openers 0 ++ ([] ++ c :: rest) := by
    rw [hline, trimStart_behind_blanks hc hindent]
    rfl
  refine parse?_of_trimStart_eq ?_
  rw [trimStart_uncomment hc (by simp) htrim, htrim]
  rfl

/-- Uncommenting brings back the assignment of a line that is commented out. -/
theorem parse?_uncomment_of_commentsOut (h : (parse? line).isSome = true)
    (hcommented : CommentsOut line commented) : parse? (uncomment commented) = parse? line := by
  obtain ⟨indent, c, rest, hindent, hc, hline⟩ := exists_opening h
  cases hcommented with
  | @behind front gap n hfront hn hgap =>
      have htrim : trimStart (String.ofList (front ++ (openers n ++ (gap ++ line.toList)))).toList =
          openers n ++ ((gap ++ indent) ++ c :: rest) := by
        rw [String.toList_ofList, hline, List.append_assoc, trimStart_openers hfront hn]
      refine parse?_of_trimStart_eq ?_
      rw [trimStart_uncomment hc (List.forall_mem_append.2 ⟨hgap, hindent⟩) htrim, hline,
        trimStart_behind_blanks hc hindent]

/-- A line that assigns carries the same tag when it is commented out. -/
theorem scanLine_of_commentsOut (h : (parse? line).isSome = true)
    (hcommented : CommentsOut line commented) : scanLine commented = scanLine line := by
  obtain ⟨indent, c, rest, hindent, hc, hline⟩ := exists_opening h
  cases hcommented with
  | @behind front gap n hfront hn hgap =>
      have hblank : ∀ {cs : List Char}, (∀ b ∈ cs, isBlank b = true) →
          ∀ b ∈ cs, (isBlank b || b = '/') = true := fun hcs b hb => by simp [hcs b hb]
      have hslash : ∀ b ∈ openers n, (isBlank b || b = '/') = true := fun b hb => by
        simp [eq_slash_of_mem_openers hb]
      have hopening : ∀ b ∈ front ++ (openers n ++ (gap ++ indent)),
          (isBlank b || b = '/') = true :=
        List.forall_mem_append.2 ⟨hblank hfront, List.forall_mem_append.2 ⟨hslash,
          List.forall_mem_append.2 ⟨hblank hgap, hblank hindent⟩⟩⟩
      have hfound := findMarker?_behind_opening hc hopening true rest
      have hfoundLine := findMarker?_behind_opening hc (hblank hindent) true rest
      simp only [List.append_assoc] at hfound
      rw [scanLine, scanLine, String.toList_ofList, hline, hfound, hfoundLine]

end Assignment

/-! ### Other texts in the same places -/

/-- The group with other body lines. -/
def TagGroup.mapBody (f : NumberedLine → NumberedLine) (group : TagGroup) : TagGroup :=
  { group with body := group.body.map f }

namespace Sections

/-- The sections with other plain lines. -/
def mapLines (f : NumberedLine → NumberedLine) (sections : Sections) : Sections :=
  { sections with
    preamble := sections.preamble.map f
    allGroups := sections.allGroups.map (TagGroup.mapBody f) }

/-- Lines that keep their numbers and their tags are cut in the same places. -/
theorem ofNumbered_map {f : NumberedLine → NumberedLine} {lines : List NumberedLine}
    (hindex : ∀ line ∈ lines, (f line).index = line.index)
    (hscan : ∀ line ∈ lines, scanLine (f line).text = scanLine line.text) :
    ofNumbered (lines.map f) = (ofNumbered lines).mapLines f := by
  induction lines with
  | nil => rfl
  | cons line lines ih =>
      have hrest := ih (fun l hl => hindex l (List.mem_cons_of_mem _ hl)) fun l hl =>
        hscan l (List.mem_cons_of_mem _ hl)
      rw [List.map_cons, ofNumbered, ofNumbered, hrest, hscan line (by simp),
        hindex line (by simp)]
      cases scanLine line.text <;> rfl

theorem groups_mapLines (f : NumberedLine → NumberedLine) (sections : Sections)
    (kind : TagKind) :
    (sections.mapLines f).groups kind = (sections.groups kind).map (TagGroup.mapBody f) := by
  rw [groups, groups, mapLines, List.filter_map]
  rfl

/-- A body line belongs to groups of one kind only. -/
theorem kind_eq_of_mem_body {lines : List String} {kind other : TagKind} {group second : TagGroup}
    {line : NumberedLine} (hgroup : group ∈ (ofLines lines).groups kind)
    (hsecond : second ∈ (ofLines lines).groups other) (hline : line ∈ group.body)
    (hline' : line ∈ second.body) : kind = other := by
  have hnodup : ((TagKind.all.flatMap (ofLines lines).groups).flatMap
      TagGroup.lineNumbers).Nodup := by
    have hall := (partitions_ofLines lines).once.nodup_iff.2 List.nodup_range
    rw [lineNumbers, List.append_assoc] at hall
    exact hall.of_append_right.of_append_left
  have hmem : ∀ {kind : TagKind} {group : TagGroup}, group ∈ (ofLines lines).groups kind →
      group ∈ TagKind.all.flatMap (ofLines lines).groups := fun {kind} {_} h =>
    List.mem_flatMap.2 ⟨kind, by cases kind <;> decide, h⟩
  have hsame : group = second := by
    by_contra hne
    have hsymm : Std.Symm (Function.onFun List.Disjoint TagGroup.lineNumbers) :=
      ⟨fun _ _ hdisjoint _ hsecond hfirst => hdisjoint hfirst hsecond⟩
    have hdisjoint := (List.nodup_flatMap.1 hnodup).2.forall (hmem hgroup) (hmem hsecond) hne
    have hnumber : ∀ {group : TagGroup}, line ∈ group.body → line.index ∈ group.lineNumbers :=
      fun h => List.mem_cons_of_mem _ (List.mem_map_of_mem h)
    exact hdisjoint (hnumber hline) (hnumber hline')
  rw [← ((partitions_ofLines lines).tags kind group hgroup).1, hsame,
    ((partitions_ofLines lines).tags other second hsecond).1]

end Sections

/-! ### Presets -/

namespace Modes

variable {f : NumberedLine → NumberedLine}

/-- A group gives the same overrides if each line of its body reads the same uncommented. -/
theorem overridesOf_mapBody {group : TagGroup}
    (h : ∀ line ∈ group.body, Assignment.parse? (uncomment (f line).text) =
      Assignment.parse? (uncomment line.text)) :
    overridesOf (group.mapBody f) = overridesOf group := by
  have hread : ((group.mapBody f).bodyTexts.map uncomment).filterMap Assignment.parse? =
      (group.bodyTexts.map uncomment).filterMap Assignment.parse? := by
    rw [TagGroup.bodyTexts, TagGroup.bodyTexts, TagGroup.mapBody]
    simp only [List.map_map, List.filterMap_map]
    refine List.filterMap_congr fun line hline => ?_
    simp only [Function.comp_apply, h line hline]
  rw [overridesOf, overridesOf, Assignment.parseAll, Assignment.parseAll, hread]

/-- A group with other body lines that give the same overrides is taken in alike. -/
theorem addGroup_mapBody {group : TagGroup}
    (h : overridesOf (group.mapBody f) = overridesOf group) (modes : Modes) :
    modes.addGroup (group.mapBody f) = modes.addGroup group := by
  rw [addGroup, addGroup, h]
  rfl

variable {groups : List TagGroup}

/-- Groups with the same overrides make up the same presets. -/
theorem foldl_addGroup_mapBody
    (h : ∀ group ∈ groups, overridesOf (group.mapBody f) = overridesOf group) (modes : Modes) :
    (groups.map (TagGroup.mapBody f)).foldl addGroup modes = groups.foldl addGroup modes := by
  induction groups generalizing modes with
  | nil => rfl
  | cons group groups ih =>
      have hrest := ih fun g hg => h g (List.mem_cons_of_mem _ hg)
      rw [List.map_cons, List.foldl_cons, List.foldl_cons, addGroup_mapBody (h group (by simp)),
        hrest]

/-- They are given notice of alike, too. -/
theorem noticesFrom_mapBody
    (h : ∀ group ∈ groups, overridesOf (group.mapBody f) = overridesOf group) (modes : Modes) :
    noticesFrom modes (groups.map (TagGroup.mapBody f)) = noticesFrom modes groups := by
  induction groups generalizing modes with
  | nil => rfl
  | cons group groups ih =>
      have hrest := ih fun g hg => h g (List.mem_cons_of_mem _ hg)
      rw [List.map_cons, noticesFrom, noticesFrom, addGroup_mapBody (h group (by simp)), hrest]
      rfl

end Modes

/-! ### Documents with commented presets -/

namespace Document

/-- The line belongs to the body of a group with a mode tag. -/
def HasPresetLine (d : Document) (line : NumberedLine) : Prop :=
  ∃ group ∈ (Sections.ofLines d.lines).groups .mode, line ∈ group.body

/-- The second document has some of the lines commented out that assign in a preset of the first
one, and is like it in all other lines. -/
structure CommentsPresets (d d' : Document) : Prop where
  length_eq : d'.lines.length = d.lines.length
  line : ∀ i line line', d.lines[i]? = some line → d'.lines[i]? = some line' → line' = line ∨
    d.HasPresetLine ⟨i, line⟩ ∧ (Assignment.parse? line).isSome = true ∧ CommentsOut line line'

/-- The line that stands in the place of another one. -/
def counterpart (d : Document) (line : NumberedLine) : NumberedLine :=
  { line with text := d.lines[line.index]?.getD line.text }

namespace CommentsPresets

variable {d d' : Document}

/-- The second document has the lines of the first one with other texts in their places. -/
theorem numbered_eq (h : d.CommentsPresets d') :
    NumberedLine.numbered 0 d'.lines = (NumberedLine.numbered 0 d.lines).map d'.counterpart := by
  refine List.ext_getElem? fun i => ?_
  rw [List.getElem?_map, NumberedLine.getElem?_numbered, NumberedLine.getElem?_numbered,
    Option.map_map]
  by_cases hi : i < d.lines.length
  · have hi' : i < d'.lines.length := h.length_eq ▸ hi
    simp [hi, hi', counterpart]
  · have hi' : ¬ i < d'.lines.length := h.length_eq ▸ hi
    simp [hi, hi']

/-- What stands in the place of a line is this line, or it is commented out. -/
theorem counterpart_cases (h : d.CommentsPresets d') {line : NumberedLine}
    (hline : d.lines[line.index]? = some line.text) : d'.counterpart line = line ∨
      d.HasPresetLine line ∧ (Assignment.parse? line.text).isSome = true ∧
        CommentsOut line.text (d'.counterpart line).text := by
  obtain ⟨hlt, _⟩ := List.getElem?_eq_some_iff.1 hline
  have hother : d'.lines[line.index]? = some (d'.counterpart line).text := by
    have hlt' : line.index < d'.lines.length := h.length_eq ▸ hlt
    simp [counterpart, hlt']
  rcases h.line _ _ _ hline hother with hsame | hcommented
  · exact .inl (congrArg (NumberedLine.mk line.index) hsame)
  · exact .inr hcommented

/-- Commenting a line of a preset out makes no tag of it and hides none. -/
theorem scanLine_counterpart (h : d.CommentsPresets d') {line : NumberedLine}
    (hline : line ∈ NumberedLine.numbered 0 d.lines) :
    scanLine (d'.counterpart line).text = scanLine line.text := by
  rcases h.counterpart_cases (NumberedLine.mem_numbered_zero_iff.1 hline) with hsame | hcommented
  · rw [hsame]
  · exact Assignment.scanLine_of_commentsOut hcommented.2.1 hcommented.2.2

/-- A line and its counterpart assign the same once they are uncommented. -/
theorem parse?_uncomment_counterpart (h : d.CommentsPresets d') {line : NumberedLine}
    (hline : d.lines[line.index]? = some line.text) :
    Assignment.parse? (uncomment (d'.counterpart line).text) =
      Assignment.parse? (uncomment line.text) := by
  rcases h.counterpart_cases hline with hsame | ⟨_, hparse, hcommented⟩
  · rw [hsame]
  · rw [Assignment.parse?_uncomment_of_commentsOut hparse hcommented,
      Assignment.parse?_uncomment hparse]

/-- The document is cut at the same lines, with the counterparts in the bodies. -/
theorem sections_eq (h : d.CommentsPresets d') :
    Sections.ofLines d'.lines = (Sections.ofLines d.lines).mapLines d'.counterpart := by
  rw [Sections.ofLines, Sections.ofLines, Sections.ofLinesFrom_eq_ofNumbered,
    Sections.ofLinesFrom_eq_ofNumbered, h.numbered_eq]
  exact Sections.ofNumbered_map (fun _ _ => rfl) fun _ => h.scanLine_counterpart

/-- The other groups are as they were. -/
theorem groups_eq (h : d.CommentsPresets d') (kind : TagKind) (hkind : kind ≠ .mode) :
    (Sections.ofLines d'.lines).groups kind = (Sections.ofLines d.lines).groups kind := by
  have hbody : ∀ group ∈ (Sections.ofLines d.lines).groups kind, ∀ line ∈ group.body,
      d'.counterpart line = line := by
    intro group hgroup line hline
    have htext := (Sections.partitions_ofLines d.lines).texts line
      (.inr ⟨kind, group, hgroup, hline⟩)
    rcases h.counterpart_cases htext with hsame | ⟨⟨preset, hpreset, hmem⟩, _⟩
    · exact hsame
    · exact absurd (Sections.kind_eq_of_mem_body hgroup hpreset hline hmem) hkind
  have hgroups : ∀ group ∈ (Sections.ofLines d.lines).groups kind,
      group.mapBody d'.counterpart = group := fun group hgroup => by
    rw [TagGroup.mapBody, List.map_congr_left (hbody group hgroup), List.map_id']
  rw [h.sections_eq, Sections.groups_mapLines, List.map_congr_left hgroups, List.map_id']

theorem overridesOf_mapBody (h : d.CommentsPresets d') :
    ∀ group ∈ (Sections.ofLines d.lines).groups .mode,
      Modes.overridesOf (group.mapBody d'.counterpart) = Modes.overridesOf group := by
  intro group hgroup
  refine Modes.overridesOf_mapBody fun line hline => h.parse?_uncomment_counterpart ?_
  exact (Sections.partitions_ofLines d.lines).texts line (.inr ⟨.mode, group, hgroup, hline⟩)

end CommentsPresets

end Document

/-- Commenting out changes nothing of a line that assigns but its text: it carries the same tag or
none as before, and as the line of a preset it assigns the same. So a document with such lines of
presets commented out is read as before, and the same is noticed. -/
theorem Loaded.presets_read_alike_commented_out :
    (∀ line commented, (Assignment.parse? line).isSome = true → CommentsOut line commented →
        scanLine commented = scanLine line ∧
          Assignment.parse? (uncomment commented) = Assignment.parse? line ∧
          Assignment.parse? (uncomment line) = Assignment.parse? line) ∧
      ∀ (d d' : Document) (options : LoadOptions), d.CommentsPresets d' →
        ofDocument d' options =
          { model := { (ofDocument d options).model with document := d' }
            notices := (ofDocument d options).notices } := by
  refine ⟨fun line commented hparse hcommented => ⟨?_, ?_, ?_⟩, fun d d' options h => ?_⟩
  · exact Assignment.scanLine_of_commentsOut hparse hcommented
  · exact Assignment.parse?_uncomment_of_commentsOut hparse hcommented
  · exact Assignment.parse?_uncomment hparse
  · have hmodes : Modes.ofGroups ((Sections.ofLines d'.lines).groups .mode) =
        Modes.ofGroups ((Sections.ofLines d.lines).groups .mode) := by
      rw [h.sections_eq, Sections.groups_mapLines]
      exact Modes.foldl_addGroup_mapBody h.overridesOf_mapBody .empty
    have hmodeNotices : Modes.noticesOfGroups ((Sections.ofLines d'.lines).groups .mode) =
        Modes.noticesOfGroups ((Sections.ofLines d.lines).groups .mode) := by
      rw [h.sections_eq, Sections.groups_mapLines]
      exact Modes.noticesFrom_mapBody h.overridesOf_mapBody .empty
    have hunknown : (Sections.ofLines d'.lines).notices = (Sections.ofLines d.lines).notices := by
      rw [h.sections_eq]
      rfl
    have htemplate := h.groups_eq .template (by decide)
    have hoverwritten := h.groups_eq .overwritten (by decide)
    have hvalue := h.groups_eq .value (by decide)
    simp only [ofDocument, hmodes, hmodeNotices, hunknown, htemplate, hoverwritten, hvalue]
    split
    · rfl
    · split <;> rfl

/-- Two lines of a preset, one with slashes in its value and one with `export` in front, are
commented out in different ways. -/
theorem Loaded.commented_preset :
    let d := Document.ofLines
      ["// @env-template", "A=1", "// @env-mode:m.n", "A=8 // 9", "note", " export B='//x'"]
    let d' := Document.ofLines
      ["// @env-template", "A=1", "// @env-mode:m.n", "\t////  A=8 // 9", "note",
        "//  export B='//x'"]
    (Assignment.parse? "A=8 // 9").isSome = true ∧ CommentsOut "A=8 // 9" "\t////  A=8 // 9" ∧
      Assignment.parse? (uncomment "\t////  A=8 // 9") = some ⟨"A", "8 // 9"⟩ ∧
      d.CommentsPresets d' ∧
      ofDocument d' {} =
        { model := { (ofDocument d {}).model with document := d' }
          notices := (ofDocument d {}).notices } := by
  intro d d'
  have htab : ∀ c ∈ ['\t'], isBlank c = true := List.forall_mem_singleton.2 (by decide)
  have hspace : ∀ c ∈ [' '], isBlank c = true := List.forall_mem_singleton.2 (by decide)
  have hspaces : ∀ c ∈ [' ', ' '], isBlank c = true := List.forall_mem_cons.2 ⟨by decide, hspace⟩
  have hfirst : CommentsOut "A=8 // 9" "\t////  A=8 // 9" :=
    @CommentsOut.behind "A=8 // 9" ['\t'] [' ', ' '] 2 htab (by decide) hspaces
  have hsecond : CommentsOut " export B='//x'" "//  export B='//x'" :=
    @CommentsOut.behind " export B='//x'" [] [' '] 1 (List.forall_mem_nil _) (by decide) hspace
  have hcomments : d.CommentsPresets d' := by
    refine ⟨rfl, fun i line line' hline hline' => ?_⟩
    match i with
    | 0 | 1 | 2 | 4 => exact .inl (Option.some.inj (hline'.symm.trans hline))
    | 3 =>
        obtain rfl : "A=8 // 9" = line := Option.some.inj hline
        obtain rfl : "\t////  A=8 // 9" = line' := Option.some.inj hline'
        refine .inr ⟨?_, by decide +kernel, hfirst⟩
        unfold Document.HasPresetLine
        decide +kernel
    | 5 =>
        obtain rfl : " export B='//x'" = line := Option.some.inj hline
        obtain rfl : "//  export B='//x'" = line' := Option.some.inj hline'
        refine .inr ⟨?_, by decide +kernel, hsecond⟩
        unfold Document.HasPresetLine
        decide +kernel
    | n + 6 => exact absurd hline (by simp [d, Document.ofLines, Document.mk'])
  have hparse : (Assignment.parse? "A=8 // 9").isSome = true := by decide +kernel
  have hread : Assignment.parse? "A=8 // 9" = some ⟨"A", "8 // 9"⟩ := by decide +kernel
  obtain ⟨hlines, hdocuments⟩ := presets_read_alike_commented_out
  refine ⟨hparse, hfirst, ?_, hcomments, hdocuments d d' {} hcomments⟩
  rw [(hlines _ _ hparse hfirst).2.1, hread]

end AnnotatedEnv
