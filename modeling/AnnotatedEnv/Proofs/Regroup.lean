/-
Module: AnnotatedEnv.Proofs.Regroup
Purpose: What a document's groups are when lines without a tag stand behind a tag line.
Main exports: bodyLines_append_of_plain, NumberedLine.numbered, Sections.ofLinesFrom_of_plain,
  Sections.ofLinesFrom_append_tag, Sections.ofLines_region, Sections.groups_region,
  Sections.groups_region_of_ne
A region is a tag line with untagged lines behind it. All groups of a document but the one that the
region opens are the same whatever these lines say.
-/
import AnnotatedEnv.Proofs.Section

namespace AnnotatedEnv

theorem exists_tag_of_opens {kind : TagKind} {line : String} (h : opens kind line = true) :
    ∃ tag, scanLine line = .tag tag ∧ tag.kind = kind := by
  simp only [opens] at h
  split at h
  · next tag hscan => exact ⟨tag, hscan, by simpa using h⟩
  · exact absurd h (by simp)

theorem isPlain_iff (line : String) : isPlain line = true ↔ scanLine line = .plain := by
  simp [isPlain]

theorem isTagged_of_isPlain {line : String} (h : isPlain line = true) : isTagged line = false := by
  simp [isTagged, (isPlain_iff line).1 h]

/-- Lines without a marker all belong to the body, which goes on behind them. -/
theorem bodyLines_append_of_plain {lines : List String} (h : ∀ line ∈ lines, isPlain line = true)
    (back : List String) : bodyLines (lines ++ back) = lines ++ bodyLines back := by
  have huntagged : ∀ line ∈ lines, isTagged line = false :=
    fun line hline => isTagged_of_isPlain (h line hline)
  have hany : lines.any isTagged = false := by
    rw [List.any_eq_false]
    intro line hline
    simp [huntagged line hline]
  rw [bodyLines_append, bodyLines_of_untagged huntagged, List.filter_eq_self.2 h, hany,
    if_neg (by simp)]

/-- The lines with their indices, counted from `i`. -/
def NumberedLine.numbered : (i : Nat) → List String → List NumberedLine
  | _, [] => []
  | i, line :: lines => ⟨i, line⟩ :: numbered (i + 1) lines

namespace NumberedLine

theorem map_index_numbered (i : Nat) (lines : List String) :
    (numbered i lines).map (·.index) = List.range' i lines.length := by
  induction lines generalizing i with
  | nil => rfl
  | cons line lines ih => simp [numbered, ih (i + 1), List.range'_succ]

theorem getElem?_numbered (i n : Nat) (lines : List String) :
    (numbered i lines)[n]? = lines[n]?.map fun text => ⟨i + n, text⟩ := by
  induction lines generalizing i n with
  | nil => rfl
  | cons line lines ih =>
      cases n with
      | zero => rfl
      | succ n => simp [numbered, ih (i + 1) n, Nat.add_assoc, Nat.add_comm 1]

end NumberedLine

namespace Sections

/-! ### Lines without a tag -/

theorem ofLinesFrom_of_plain {lines : List String} (h : ∀ line ∈ lines, isPlain line = true)
    (i : Nat) : ofLinesFrom i lines = ⟨NumberedLine.numbered i lines, [], []⟩ := by
  induction lines generalizing i with
  | nil => rfl
  | cons line lines ih =>
      have hline : scanLine line = .plain := (isPlain_iff line).1 (h line (by simp))
      have hrest := ih (fun l hl => h l (List.mem_cons_of_mem line hl)) (i + 1)
      simp [ofLinesFrom, hline, hrest, NumberedLine.numbered]

/-- Lines without a tag add to the preamble of what follows them. -/
theorem ofLinesFrom_append_untagged {lines : List String}
    (h : ∀ line ∈ lines, isTagged line = false) (i : Nat) (back : List String) :
    ofLinesFrom i (lines ++ back) =
      { preamble := (ofLinesFrom i lines).preamble ++ (ofLinesFrom (i + lines.length) back).preamble
        allGroups := (ofLinesFrom (i + lines.length) back).allGroups
        unknownTags := (ofLinesFrom i lines).unknownTags ++
          (ofLinesFrom (i + lines.length) back).unknownTags } := by
  induction lines generalizing i with
  | nil => rfl
  | cons line lines ih =>
      have hline : isTagged line = false := h line (by simp)
      have hrest := ih (fun l hl => h l (List.mem_cons_of_mem line hl)) (i + 1)
      have hindex : i + (line :: lines).length = i + 1 + lines.length := by
        rw [List.length_cons]
        omega
      rw [hindex]
      cases hscan : scanLine line with
      | plain => simp [ofLinesFrom, hscan, hrest]
      | unknown name => simp [ofLinesFrom, hscan, hrest]
      | tag tag => simp [isTagged, hscan] at hline

/-! ### A tag line -/

/-- A tag line ends all that stands in front of it, and owns the plain lines up to the next tag. -/
theorem ofLinesFrom_append_tag {tagLine : String} {tag : Tag} (htag : scanLine tagLine = .tag tag)
    (i : Nat) (front lines : List String) :
    ofLinesFrom i (front ++ tagLine :: lines) =
      { preamble := (ofLinesFrom i front).preamble
        allGroups := (ofLinesFrom i front).allGroups ++
          ⟨i + front.length, tag, (ofLinesFrom (i + front.length + 1) lines).preamble⟩ ::
            (ofLinesFrom (i + front.length + 1) lines).allGroups
        unknownTags := (ofLinesFrom i front).unknownTags ++
          (ofLinesFrom (i + front.length + 1) lines).unknownTags } := by
  induction front generalizing i with
  | nil => simp [ofLinesFrom, htag]
  | cons line front ih =>
      have hindex : i + (line :: front).length = i + 1 + front.length := by
        rw [List.length_cons]
        omega
      rw [hindex, List.cons_append]
      cases hscan : scanLine line <;> simp [ofLinesFrom, hscan, ih]

theorem groups_of_not_opens {kind : TagKind} {lines : List String}
    (h : ∀ line ∈ lines, opens kind line = false) (i : Nat) :
    (ofLinesFrom i lines).groups kind = [] := by
  have hfirst := groups_ofLinesFrom kind i lines
  rw [firstBody?_eq_none_iff.2 h] at hfirst
  cases hgroups : (ofLinesFrom i lines).groups kind with
  | nil => rfl
  | cons g gs => simp [hgroups] at hfirst

/-! ### Regions -/

/-- The sections of a document with a region in it. -/
theorem ofLines_region {tagLine : String} {tag : Tag} (htag : scanLine tagLine = .tag tag)
    {lines : List String} (huntagged : ∀ line ∈ lines, isTagged line = false)
    (front back : List String) :
    ofLines (front ++ tagLine :: (lines ++ back)) =
      { preamble := (ofLines front).preamble
        allGroups := (ofLines front).allGroups ++
          ⟨front.length, tag, (ofLinesFrom (front.length + 1) lines).preamble ++
            (ofLinesFrom (front.length + 1 + lines.length) back).preamble⟩ ::
              (ofLinesFrom (front.length + 1 + lines.length) back).allGroups
        unknownTags := (ofLines front).unknownTags ++
          ((ofLinesFrom (front.length + 1) lines).unknownTags ++
            (ofLinesFrom (front.length + 1 + lines.length) back).unknownTags) } := by
  rw [ofLines, ofLinesFrom_append_tag htag, Nat.zero_add, ofLinesFrom_append_untagged huntagged]
  rfl

/-- The first group of its kind is the one that the region opens. -/
theorem groups_region {kind : TagKind} {tagLine : String} {tag : Tag}
    (htag : scanLine tagLine = .tag tag) (hkind : tag.kind = kind) {front lines : List String}
    (hfront : ∀ line ∈ front, opens kind line = false)
    (huntagged : ∀ line ∈ lines, isTagged line = false) (back : List String) :
    (ofLines (front ++ tagLine :: (lines ++ back))).groups kind =
      ⟨front.length, tag, (ofLinesFrom (front.length + 1) lines).preamble ++
        (ofLinesFrom (front.length + 1 + lines.length) back).preamble⟩ ::
          (ofLinesFrom (front.length + 1 + lines.length) back).groups kind := by
  have hnone : (ofLines front).groups kind = [] := groups_of_not_opens hfront 0
  rw [groups] at hnone
  rw [ofLines_region htag huntagged, groups, List.filter_append, hnone]
  simp [groups, hkind]

/-- The groups of another kind do not depend on the lines of the region. -/
theorem groups_region_of_ne {kind : TagKind} {tagLine : String} {tag : Tag}
    (htag : scanLine tagLine = .tag tag) (hkind : tag.kind ≠ kind) {lines : List String}
    (huntagged : ∀ line ∈ lines, isTagged line = false) (front back : List String) :
    (ofLines (front ++ tagLine :: (lines ++ back))).groups kind =
      (ofLines front).groups kind ++
        (ofLinesFrom (front.length + 1 + lines.length) back).groups kind := by
  rw [ofLines_region htag huntagged, groups, List.filter_append]
  simp [groups, hkind]

end Sections

end AnnotatedEnv
