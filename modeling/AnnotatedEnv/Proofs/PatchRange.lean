/-
Module: AnnotatedEnv.Proofs.PatchRange
Purpose: Which lines the patch of an edit is for, what else of a document it touches, and exactly
  when there is none.
Main exports: Document.DiffersWithin, Patch.WritesFrom, WriteRange.writesFrom,
  Model.instructionsFrom_eq_error_iff, Model.patchFor_eq_error_iff, Model.edit_patch_covers_range
The range of a patch starts right behind the tag of the target and has one line for each key of the
template. Everything around it stays.
-/
import AnnotatedEnv.Proofs.WriteBack

namespace AnnotatedEnv

open TemplateBlock (assignments)

/-! ### Ranges of lines -/

/-- A document that may differ from the one before in the lines from `first` to just before `last`
and in nothing else. -/
structure Document.DiffersWithin (before after : Document) (first last : Nat) : Prop where
  size : after.size = before.size
  lineEnding : after.lineEnding = before.lineEnding
  trailingNewline : after.trailingNewline = before.trailingNewline
  outside : ∀ i, i < first ∨ last ≤ i → after.line? i = before.line? i
  digest : after.digest = .ofLines after.lines

/-- A patch that writes entries into a document, one a line from `first` on. -/
structure Patch.WritesFrom (p : Patch) (d : Document) (first : Nat) (entries : List Entry) :
    Prop where
  base : p.base = d.digest
  size : p.size = entries.length
  instruction : ∀ (i : Nat) (key value : String), entries[i]? = some (key, value) →
    p.instructions[i]? = some ⟨first + i, Assignment.render key value⟩
  inRange : first + entries.length ≤ d.size
  /-- The indices of a document are words of sixty-four bits, and so is the index behind it. -/
  lineRange : d.size < 18446744073709551616 →
    p.lineRange? = some (first, first + entries.length)
  applies : ∃ after, p.applyTo d = .ok after ∧
    d.DiffersWithin after first (first + entries.length)

namespace Patch

open LinePatch

/-- The range of neighbouring lines, as long as a word can count to behind the last one. -/
theorem lineRange?_numbered (base : Digest) (first : Nat) {texts : List String} (h : texts ≠ [])
    (hword : first + texts.length < 18446744073709551616) :
    (⟨base, numbered first texts⟩ : Patch).lineRange? = some (first, first + texts.length) := by
  obtain ⟨text, texts, rfl⟩ := List.exists_cons_of_ne_nil h
  have hhead : (numbered first (text :: texts)).head? = some ⟨first, text⟩ := rfl
  have hlast : (numbered first (text :: texts)).getLast? =
      some ⟨first + texts.length, (text :: texts)[texts.length]⟩ := by
    rw [List.getLast?_eq_getElem?, length_numbered, getElem?_numbered, List.length_cons,
      Nat.add_sub_cancel, List.getElem?_eq_getElem]
    rfl
  rw [List.length_cons, ← Nat.add_assoc] at hword ⊢
  simp only [lineRange?, hhead, hlast, Nat.mod_eq_of_lt hword]

/-- A patch of neighbouring lines touches these lines only. -/
theorem differsWithin_of_numbered {base : Digest} {first : Nat} {texts : List String}
    {before after : Document}
    (h : (⟨base, numbered first texts⟩ : Patch).applyTo before = .ok after) :
    before.DiffersWithin after first (first + texts.length) := by
  obtain ⟨_, _, rfl⟩ := (applyTo_eq_ok_iff _ _ _).1 h
  constructor
  · exact length_replaceLines before.lines (numbered first texts)
  · rfl
  · rfl
  · intro i hi
    refine getElem?_replaceLines_of_ne (fun p hp => ?_) before.lines
    have hindex := index_mem_numbered hp
    omega
  · rfl

end Patch

/-- The patch of a range writes the entries of the configuration into its lines. -/
theorem WriteRange.writesFrom {d : Document} {options : LoadOptions} {effective : Settings}
    (range : WriteRange d options effective) (hne : effective.isEmpty = false) :
    (⟨d.digest, LinePatch.numbered range.before.length (effective.entries.map Entry.line)⟩ :
      Patch).WritesFrom d range.before.length effective.entries := by
  have hlines : effective.entries.map Entry.line ≠ [] := by
    intro hnil
    rw [OrderedMap.isEmpty, List.map_eq_nil_iff.1 hnil] at hne
    exact absurd hne (by simp)
  have hlength : (effective.entries.map Entry.line).length = effective.entries.length :=
    List.length_map _
  have hrange : range.before.length + effective.entries.length ≤ d.size := by
    have hold := range.heldBy.length_eq
    rw [Document.size, range.lines_eq, WriteRange.before]
    simp only [List.length_append, List.length_cons, List.length_nil]
    omega
  constructor
  · rfl
  · exact (LinePatch.length_numbered _ _).trans hlength
  · intro i key value hentry
    rw [LinePatch.getElem?_numbered, List.getElem?_map, hentry]
    rfl
  · exact hrange
  · intro hsize
    rw [Patch.lineRange?_numbered _ _ hlines (hlength ▸ Nat.lt_of_le_of_lt hrange hsize), hlength]
  · refine ⟨range.written, range.applyTo, ?_⟩
    rw [← hlength]
    exact Patch.differsWithin_of_numbered range.applyTo

namespace Model

/-! ### Layouts without a patch -/

/-- There are no instructions exactly if the line of some entry does not assign its key. -/
theorem instructionsFrom_eq_error_iff (m : Model) (first : Nat) (entries : List Entry) :
    (∃ e, m.instructionsFrom first entries = .error e) ↔
      ∃ (i : Nat) (key : String), (entries.map Prod.fst)[i]? = some key ∧
        ¬ m.document.Assigns (first + i) key := by
  induction entries generalizing first with
  | nil => simp [instructionsFrom]
  | cons entry entries ih =>
      obtain ⟨key, value⟩ := entry
      by_cases hholds : m.document.Assigns first key
      · -- The first line is as expected, so whatever is wrong is wrong further down.
        have hrest : (∃ e, m.instructionsFrom first ((key, value) :: entries) = .error e) ↔
            ∃ e, m.instructionsFrom (first + 1) entries = .error e := by
          rw [instructionsFrom, if_pos ((m.holdsKey_iff first key).2 hholds)]
          cases m.instructionsFrom (first + 1) entries with
          | error e => simp [Except.map]
          | ok instructions => simp [Except.map]
        rw [hrest, ih]
        constructor
        · rintro ⟨i, k, hk, hmissing⟩
          exact ⟨i + 1, k, hk, by rwa [Nat.add_comm i 1, ← Nat.add_assoc]⟩
        · rintro ⟨i, k, hk, hmissing⟩
          cases i with
          | zero =>
              obtain rfl : key = k := by simpa using hk
              exact absurd hholds hmissing
          | succ i =>
              exact ⟨i, k, hk, by rwa [Nat.add_comm i 1, ← Nat.add_assoc] at hmissing⟩
      · have hmissing : ¬ m.holdsKey first key = true := fun h =>
          hholds ((m.holdsKey_iff first key).1 h)
        rw [instructionsFrom, if_neg hmissing]
        exact ⟨fun _ => ⟨0, key, rfl, hholds⟩, fun _ => ⟨_, rfl⟩⟩

/-- The assignments that are counted for a target are those in the body of the group at its tag. -/
theorem group_of_target {d : Document} {options : LoadOptions} {target : PatchTarget}
    (h : (ofDocument d options).target = some target) :
    ∃ group, ((Sections.ofLines d.lines).groups target.kind).head? = some group ∧
      group.tagLine = target.tagLine ∧
      target.assignmentLines = (assignments group.bodyTexts).length := by
  obtain ⟨block, hblock, rfl⟩ := block_of_target h
  rw [Document.block?, TemplateBlock.ofGroups_eq_map, Option.map_map] at hblock
  obtain ⟨group, hgroup, rfl⟩ := Option.map_eq_some_iff.1 hblock
  exact ⟨group, hgroup, rfl, rfl⟩

/-- What is in the way of writing a configuration with some keys into a document. -/
inductive Unwritable (d : Document) (options : LoadOptions) (keys : List String) : Prop where
  | noTarget (missing : (ofDocument d options).target = none)
  /-- The line where some key is expected does not assign it. -/
  | misplaced (target : PatchTarget) (i : Nat) (key : String)
      (place : (ofDocument d options).target = some target) (expected : keys[i]? = some key)
      (missing : ¬ d.Assigns (target.tagLine + 1 + i) key)
  /-- The body of the target has more assignments than there are keys. -/
  | repeated (target : PatchTarget) (group : TagGroup)
      (place : (ofDocument d options).target = some target)
      (first : ((Sections.ofLines d.lines).groups target.kind).head? = some group)
      (opened : group.tagLine = target.tagLine)
      (more : keys.length < (assignments group.bodyTexts).length)

/-- With a target there is no patch exactly if a line does not assign its key or the body assigns
too much. -/
theorem patchFor_eq_error_iff_of_target {m : Model} {effective : Settings} {target : PatchTarget}
    (hne : effective.isEmpty = false) (htarget : m.target = some target) :
    (∃ e, m.patchFor effective = .error e) ↔
      (∃ e, m.instructionsFrom target.firstLine effective.entries = .error e) ∨
        effective.size < target.assignmentLines := by
  simp only [patchFor, hne, htarget, Bool.false_eq_true, if_false]
  cases m.instructionsFrom target.firstLine effective.entries with
  | error e => simp
  | ok instructions =>
      dsimp only
      split
      · next hmore => simp [hmore]
      · next hfits => simp [hfits]

/-- A configuration with keys is not written back exactly if something is in the way. -/
theorem patchFor_eq_error_iff (d : Document) (options : LoadOptions) {effective : Settings}
    (hne : effective.isEmpty = false) :
    (∃ e, (ofDocument d options).patchFor effective = .error e) ↔
      Unwritable d options effective.keys := by
  cases htarget : (ofDocument d options).target with
  | none =>
      have hnone : (ofDocument d options).patchFor effective = .error .missingTarget := by
        simp only [patchFor, hne, htarget, Bool.false_eq_true, if_false]
      exact ⟨fun _ => .noTarget htarget, fun _ => ⟨_, hnone⟩⟩
  | some target =>
      obtain ⟨group, hgroup, hopened, hcount⟩ := group_of_target htarget
      have hplaces := instructionsFrom_eq_error_iff (ofDocument d options) target.firstLine
        effective.entries
      rw [document_ofDocument] at hplaces
      rw [patchFor_eq_error_iff_of_target hne htarget, hplaces, OrderedMap.size_eq_length_keys,
        hcount]
      constructor
      · rintro (⟨i, key, hkey, hmissing⟩ | hmore)
        · exact .misplaced target i key htarget hkey hmissing
        · exact .repeated target group htarget hgroup hopened hmore
      · intro h
        cases h with
        | noTarget missing => exact absurd (htarget.symm.trans missing) (by simp)
        | misplaced other i key place expected missing =>
            obtain rfl := Option.some.inj (htarget.symm.trans place)
            exact Or.inl ⟨i, key, expected, missing⟩
        | repeated other found place first _ more =>
            obtain rfl := Option.some.inj (htarget.symm.trans place)
            obtain rfl := Option.some.inj (hgroup.symm.trans first)
            exact Or.inr more

/-! ### The range of an edit -/

/-- The patch of an edit that changes something is for the lines right behind the tag of the target,
one for each key of the configuration. -/
theorem writesFrom_of_edit {d : Document} {options : LoadOptions} {effective : Settings}
    {request : Request} {edit : Edit} (h : (ofDocument d options).edit effective request = .ok edit)
    (hchanged : edit.isNoop = false) :
    ∃ target, (ofDocument d options).target = some target ∧
      edit.patch.WritesFrom d (target.tagLine + 1) edit.effective.entries := by
  have hne := isEmpty_eq_false_of_changes h hchanged
  obtain ⟨range, ⟨target, htarget, _, hfirst⟩, hpatch⟩ :=
    writeRange_of_patchFor hne ((edit_eq_ok h).2.2 hchanged)
  refine ⟨target, htarget, ?_⟩
  rw [hpatch, ← PatchTarget.firstLine, hfirst]
  exact range.writesFrom hne

/-- An accepted request has an empty patch exactly if it changes nothing. -/
theorem isEmpty_patch_of_edit {d : Document} {options : LoadOptions} {effective : Settings}
    {request : Request} {edit : Edit}
    (h : (ofDocument d options).edit effective request = .ok edit) :
    edit.patch.isEmpty = true ↔ edit.changes.isEmpty = true := by
  cases hchanged : edit.isNoop with
  | true =>
      rw [(edit_eq_ok h).2.1 hchanged]
      exact ⟨fun _ => hchanged, fun _ => rfl⟩
  | false =>
      obtain ⟨target, _, hwrites⟩ := writesFrom_of_edit h hchanged
      have hne := isEmpty_eq_false_of_changes h hchanged
      have hpatch : edit.patch.isEmpty = false := by
        rw [Patch.isEmpty, List.isEmpty_eq_false_iff, ← List.length_pos_iff, ← Patch.size,
          hwrites.size, List.length_pos_iff, ← List.isEmpty_eq_false_iff]
        exact hne
      rw [Edit.isNoop] at hchanged
      simp [hpatch, hchanged]

/-- What an edit of a document writes and where: nothing exactly if it changes nothing, else the
value of every template key, each into its line behind the tag of the target, and no other line of
the document changes. A configuration with the keys of the template has no such patch exactly if
something is in the way. -/
theorem edit_patch_covers_range (d : Document) (options : LoadOptions) :
    (∀ (effective : Settings) (request : Request) (edit : Edit),
      (ofDocument d options).Reached effective →
      (ofDocument d options).edit effective request = .ok edit →
        (edit.patch.isEmpty = true ↔ edit.changes.isEmpty = true) ∧
        (edit.changes.isEmpty = false →
          ∃ target, (ofDocument d options).target = some target ∧
            edit.effective.keys = (ofDocument d options).template.keys ∧
            edit.effective.entries.length = (ofDocument d options).template.size ∧
            edit.patch.WritesFrom d (target.tagLine + 1) edit.effective.entries)) ∧
    (∀ effective : Settings, effective.isEmpty = false →
      effective.keys = (ofDocument d options).template.keys →
        ((∃ e, (ofDocument d options).patchFor effective = .error e) ↔
          Unwritable d options (ofDocument d options).template.keys)) := by
  constructor
  · intro effective request edit hreached hedit
    have hkeys : edit.effective.keys = (ofDocument d options).template.keys := by
      rw [Request.keys_of_compute (edit_eq_ok hedit).1, hreached.keys, keys_baseline_ofDocument]
    have hsize : edit.effective.entries.length = (ofDocument d options).template.size := by
      rw [OrderedMap.size_eq_length_keys, ← hkeys, ← OrderedMap.size_eq_length_keys,
        OrderedMap.size]
    refine ⟨isEmpty_patch_of_edit hedit, fun hchanged => ?_⟩
    obtain ⟨target, htarget, hwrites⟩ := writesFrom_of_edit hedit hchanged
    exact ⟨target, htarget, hkeys, hsize, hwrites⟩
  · intro effective hne hkeys
    rw [← hkeys]
    exact patchFor_eq_error_iff d options hne

/-- A preset behind a request, over an overwriting block whose last line is not ended: the
constant `B` is written with the value of the template. A comment between two keys is in the way. -/
theorem overwriting_block_range :
    let d := Document.mk' ["// @env-template", "A=1", "B=2", "C=3", "// @env-value:B(constant)",
      "// @env-mode:m.n", "// C=8", "// B=9", "// @env-overwritten", "A=5", "B=6", "export C=7"]
      .crlf false
    let options : LoadOptions := { legacyOverwritten := true }
    let m := ofDocument d options
    let commented := Document.ofLines ["// @env-template", "A=1", "# B is next", "B=2"]
    (∃ effective edit, m.Reached effective ∧ m.edit effective (.selectMode ⟨"m", "n"⟩) = .ok edit ∧
      edit.effective = .ofList [("A", "4"), ("B", "2"), ("C", "8")] ∧
      edit.patch.WritesFrom d 9 edit.effective.entries) ∧
    ∃ e, (ofDocument commented {}).patchFor (.ofList [("A", "1"), ("B", "3")]) = .error e := by
  intro d options m commented
  constructor
  · have hset : (Request.setValue "A" "4").compute m m.baseline =
        .ok ⟨.ofList [("A", "4"), ("B", "2"), ("C", "7")], .ofList [("A", "4")]⟩ := by
      decide +kernel
    have hparts : (m.edit (.ofList [("A", "4"), ("B", "2"), ("C", "7")])
          (.selectMode ⟨"m", "n"⟩)).map (fun e => (e.effective, e.changes, e.patch.instructions)) =
        .ok (.ofList [("A", "4"), ("B", "2"), ("C", "8")], .ofList [("C", "8")],
          [⟨9, "A=4"⟩, ⟨10, "B=2"⟩, ⟨11, "C=8"⟩]) := by
      decide +kernel
    obtain ⟨edit, hedit, heffective, hchanges, _⟩ := exists_edit hparts
    have hchanged : edit.changes.isEmpty = false := by
      rw [hchanges]
      decide
    have hreached := Reached.baseline.step hset
    obtain ⟨target, htarget, _, _, hwrites⟩ :=
      ((edit_patch_covers_range d options).1 _ _ edit hreached hedit).2 hchanged
    have hplace : m.target = some ⟨.overwritten, 8, 3⟩ := by decide +kernel
    obtain rfl : target = ⟨.overwritten, 8, 3⟩ := Option.some.inj (htarget.symm.trans hplace)
    exact ⟨_, edit, hreached, hedit, heffective, hwrites⟩
  · refine ((edit_patch_covers_range commented {}).2 _ (by decide) (by decide +kernel)).2 ?_
    refine .misplaced ⟨.template, 0, 2⟩ 1 "B" (by decide +kernel) (by decide +kernel) ?_
    rintro ⟨text, value, hline, hparse⟩
    obtain rfl : "# B is next" = text := Option.some.inj hline
    have hnone : Assignment.parse? "# B is next" = none := by decide +kernel
    exact absurd (hnone.symm.trans hparse) (by simp)

end Model

end AnnotatedEnv
