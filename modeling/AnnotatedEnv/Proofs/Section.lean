/-
Module: AnnotatedEnv.Proofs.Section
Purpose: The body of a group told from the lines alone, without cutting the whole document.
Main exports: isPlain, isTagged, opens, bodyLines, firstBody?, TemplateBlock.ofGroups_ofLinesFrom,
  bodyLines_of_untagged, bodyLines_append
-/
import AnnotatedEnv.Model.Template
import AnnotatedEnv.Proofs.OrderedMap

namespace AnnotatedEnv

/-! ### Lines -/

/-- The line carries no marker. -/
def isPlain (line : String) : Bool := scanLine line = .plain

/-- The line carries a recognised tag. -/
def isTagged (line : String) : Bool :=
  match scanLine line with
  | .tag _ => true
  | _ => false

/-- The line carries a tag of the kind. -/
def opens (kind : TagKind) (line : String) : Bool :=
  match scanLine line with
  | .tag tag => tag.kind = kind
  | _ => false

theorem isTagged_of_opens {kind : TagKind} {line : String} (h : opens kind line = true) :
    isTagged line = true := by
  simp only [opens] at h
  split at h
  · next tag hscan => simp [isTagged, hscan]
  · exact absurd h (by simp)

/-! ### Bodies -/

/-- The plain lines up to the next tag: what a tag in front of these lines owns. -/
def bodyLines : List String → List String
  | [] => []
  | line :: lines =>
    if isTagged line then []
    else if isPlain line then line :: bodyLines lines
    else bodyLines lines

/-- The index of the first tag of a kind and the lines it owns; `i` is the index of the first
line. -/
def firstBody? (kind : TagKind) : (i : Nat) → List String → Option (Nat × List String)
  | _, [] => none
  | i, line :: lines =>
    if opens kind line then some (i, bodyLines lines) else firstBody? kind (i + 1) lines

theorem bodyLines_of_untagged {lines : List String}
    (h : ∀ line ∈ lines, isTagged line = false) : bodyLines lines = lines.filter isPlain := by
  induction lines with
  | nil => rfl
  | cons line lines ih =>
      have hrest := ih fun l hl => h l (List.mem_cons_of_mem line hl)
      have hline : isTagged line = false := h line (by simp)
      cases hplain : isPlain line <;> simp [bodyLines, hline, hplain, hrest]

/-- A tag among the lines in front hides all that follows them. -/
theorem bodyLines_append (front lines : List String) :
    bodyLines (front ++ lines) =
      bodyLines front ++ if front.any isTagged then [] else bodyLines lines := by
  induction front with
  | nil => simp [bodyLines]
  | cons line front ih =>
      cases hline : isTagged line with
      | true => simp [bodyLines, hline]
      | false => cases hplain : isPlain line <;> simp [bodyLines, hline, hplain, ih]

/-- A tag among some lines costs their body at least one line. -/
theorem length_bodyLines_lt {lines : List String} (h : ∃ line ∈ lines, isTagged line = true) :
    (bodyLines lines).length < lines.length := by
  induction lines with
  | nil =>
      rcases h with ⟨line, hmem, _⟩
      exact absurd hmem (by simp)
  | cons line lines ih =>
      rcases h with ⟨l, hmem, htagged⟩
      cases hline : isTagged line with
      | true => simp [bodyLines, hline]
      | false =>
          have hrest : l ∈ lines := by
            rcases List.mem_cons.1 hmem with rfl | hmem
            · rw [hline] at htagged
              exact absurd htagged (by simp)
            · exact hmem
          have hlt := ih ⟨l, hrest, htagged⟩
          cases hplain : isPlain line <;> simp [bodyLines, hline, hplain] <;> omega

/-! ### Groups -/

namespace Sections

theorem preamble_ofLinesFrom (i : Nat) (lines : List String) :
    (ofLinesFrom i lines).preamble.map (·.text) = bodyLines lines := by
  induction lines generalizing i with
  | nil => rfl
  | cons line lines ih =>
      cases hscan : scanLine line with
      | plain => simp [ofLinesFrom, bodyLines, isTagged, isPlain, hscan, ih (i + 1)]
      | tag tag => simp [ofLinesFrom, bodyLines, isTagged, hscan]
      | unknown name => simp [ofLinesFrom, bodyLines, isTagged, isPlain, hscan, ih (i + 1)]

/-- The first group of a kind begins at the first line with such a tag. -/
theorem groups_ofLinesFrom (kind : TagKind) (i : Nat) (lines : List String) :
    ((ofLinesFrom i lines).groups kind).head?.map (fun g => (g.tagLine, g.bodyTexts)) =
      firstBody? kind i lines := by
  induction lines generalizing i with
  | nil => rfl
  | cons line lines ih =>
      cases hscan : scanLine line with
      | plain => simpa [ofLinesFrom, firstBody?, opens, hscan, groups] using ih (i + 1)
      | unknown name => simpa [ofLinesFrom, firstBody?, opens, hscan, groups] using ih (i + 1)
      | tag tag =>
          by_cases hkind : tag.kind = kind
          · have hbody := preamble_ofLinesFrom (i + 1) lines
            simp [ofLinesFrom, firstBody?, opens, hscan, groups, hkind, TagGroup.bodyTexts, hbody]
          · simpa [ofLinesFrom, firstBody?, opens, hscan, groups, hkind] using ih (i + 1)

end Sections

namespace TemplateBlock

/-- The assignments of body texts in order, repeats included. -/
def assignments (texts : List String) : List (String × String) :=
  (texts.filterMap Assignment.parse?).map fun a => (a.key, a.value)

theorem assignments_cons {text : String} {a : Assignment} (h : Assignment.parse? text = some a)
    (texts : List String) :
    assignments (text :: texts) = (a.key, a.value) :: assignments texts := by
  simp [assignments, h]

theorem length_assignedKeys (body : List NumberedLine) :
    (assignedKeys body).length = (assignments (body.map (·.text))).length := by
  induction body with
  | nil => rfl
  | cons line body ih =>
      simp only [assignedKeys, assignments] at ih ⊢
      cases hparse : Assignment.parse? line.text <;> simpa [hparse] using ih

theorem ofGroups_eq_map (groups : List TagGroup) :
    ofGroups groups =
      (groups.head?.map fun g => (g.tagLine, g.bodyTexts)).map fun body =>
        { tagLine := body.1
          settings := OrderedMap.ofList (assignments body.2)
          assignmentLines := (assignments body.2).length } := by
  cases groups with
  | nil => rfl
  | cons first later =>
      simp [ofGroups, Assignment.parseAll, assignments, length_assignedKeys, TagGroup.bodyTexts]

/-- The block of a kind is read off the lines behind the first tag of the kind. -/
theorem ofGroups_ofLinesFrom (kind : TagKind) (i : Nat) (lines : List String) :
    ofGroups ((Sections.ofLinesFrom i lines).groups kind) =
      (firstBody? kind i lines).map fun body =>
        { tagLine := body.1
          settings := OrderedMap.ofList (assignments body.2)
          assignmentLines := (assignments body.2).length } := by
  rw [ofGroups_eq_map, Sections.groups_ofLinesFrom]

end TemplateBlock

/-! ### The first tag of a kind -/

theorem firstBody?_append {kind : TagKind} {front : List String} {tagLine : String}
    (hfront : ∀ line ∈ front, opens kind line = false) (htag : opens kind tagLine = true)
    (i : Nat) (lines : List String) :
    firstBody? kind i (front ++ tagLine :: lines) = some (i + front.length, bodyLines lines) := by
  induction front generalizing i with
  | nil => simp [firstBody?, htag]
  | cons line front ih =>
      have hline : opens kind line = false := hfront line (by simp)
      have hrest := ih (fun l hl => hfront l (List.mem_cons_of_mem line hl)) (i + 1)
      simp [firstBody?, hline, hrest, Nat.add_assoc, Nat.add_comm 1]

theorem firstBody?_eq_none_iff {kind : TagKind} {i : Nat} {lines : List String} :
    firstBody? kind i lines = none ↔ ∀ line ∈ lines, opens kind line = false := by
  induction lines generalizing i with
  | nil => simp [firstBody?]
  | cons line lines ih =>
      cases hline : opens kind line <;> simp [firstBody?, hline, ih]

theorem exists_of_firstBody? {kind : TagKind} {i j : Nat} {lines body : List String}
    (h : firstBody? kind i lines = some (j, body)) :
    ∃ front tagLine rest, lines = front ++ tagLine :: rest ∧ j = i + front.length ∧
      (∀ line ∈ front, opens kind line = false) ∧ opens kind tagLine = true ∧
      body = bodyLines rest := by
  induction lines generalizing i with
  | nil => exact absurd h (by simp [firstBody?])
  | cons line lines ih =>
      simp only [firstBody?] at h
      split at h
      · next hopens =>
        simp only [Option.some.injEq, Prod.mk.injEq] at h
        exact ⟨[], line, lines, rfl, h.1.symm, by simp, hopens, h.2.symm⟩
      · next hopens =>
        obtain ⟨front, tagLine, rest, hlines, hj, hfront, htag, hbody⟩ := ih h
        refine ⟨line :: front, tagLine, rest, by rw [hlines]; rfl, ?_, ?_, htag, hbody⟩
        · rw [hj, List.length_cons]
          omega
        · intro l hl
          rcases List.mem_cons.1 hl with rfl | hl
          · simpa using hopens
          · exact hfront l hl

end AnnotatedEnv
