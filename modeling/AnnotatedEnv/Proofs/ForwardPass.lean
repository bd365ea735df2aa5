/-
Module: AnnotatedEnv.Proofs.ForwardPass
Purpose: Cutting lines from the front to the back in one pass.
Main exports: Sections.push, Sections.ofNumbered_concat, ForwardPass, ForwardPass.push,
  ForwardPass.Gathers, ForwardPass.gathers_ofLines
The sections of a document are defined from its last line to its first. A pass in reading order,
with a list of groups for each kind and the kind of the last tag as all its memory, gathers the
same.
-/
import Mathlib.Data.List.ModifyLast
import Mathlib.Logic.Function.Basic
import AnnotatedEnv.Proofs.Renumber

namespace AnnotatedEnv

/-- The group with one more line at the end of its body. -/
def TagGroup.addLine (line : NumberedLine) (group : TagGroup) : TagGroup :=
  { group with body := group.body ++ [line] }

namespace Sections

/-- The sections of lines with one more line at their end. A plain one belongs to the last group, or
to the preamble as long as there is no group. -/
def push (sections : Sections) (line : NumberedLine) : Sections :=
  match scanLine line.text with
  | .plain =>
    if sections.allGroups.isEmpty then { sections with preamble := sections.preamble ++ [line] }
    else { sections with allGroups := sections.allGroups.modifyLast (TagGroup.addLine line) }
  | .tag tag => { sections with allGroups := sections.allGroups ++ [⟨line.index, tag, []⟩] }
  | .unknown name =>
    { sections with unknownTags := sections.unknownTags ++ [(line.index, name)] }

/-- Of the groups that end with one, it is the last of its kind, and no group of another. -/
theorem groups_of_concat {sections : Sections} {groups : List TagGroup} {last : TagGroup}
    (h : sections.allGroups = groups ++ [last]) (kind : TagKind) :
    sections.groups kind = groups.filter (fun group => group.tag.kind = kind) ++
      if kind = last.tag.kind then [last] else [] := by
  rw [Sections.groups, h, List.filter_append]
  by_cases hkind : kind = last.tag.kind
  · simp [hkind]
  · simp [hkind, Ne.symm hkind]

/-- One more line is pushed onto what the lines before it gave. -/
theorem ofNumbered_concat (lines : List NumberedLine) (line : NumberedLine) :
    ofNumbered (lines ++ [line]) = (ofNumbered lines).push line := by
  induction lines with
  | nil => cases hscan : scanLine line.text <;> simp [ofNumbered, push, hscan]
  | cons first lines ih =>
      rw [List.cons_append, ofNumbered, ih, ofNumbered]
      cases hline : scanLine line.text with
      | tag tag => cases scanLine first.text <;> simp [push, hline]
      | unknown name => cases scanLine first.text <;> simp [push, hline]
      | plain =>
          cases hgroups : (ofNumbered lines).allGroups with
          | nil =>
              have hopened := fun group => List.modifyLast_concat (TagGroup.addLine line) group []
              simp only [List.nil_append] at hopened
              cases scanLine first.text <;>
                simp [push, hline, hgroups, hopened, TagGroup.addLine]
          | cons group groups =>
              have hbehind := fun opened => List.modifyLast_append_of_right_ne_nil
                (TagGroup.addLine line) [opened] (group :: groups) (List.cons_ne_nil _ _)
              simp only [List.singleton_append] at hbehind
              cases scanLine first.text <;> simp [push, hline, hgroups, hbehind]

end Sections

/-! ### One pass -/

/-- What one pass over the lines has gathered: the groups of every kind in a list of their own, and
the kind of the last tag. -/
structure ForwardPass where
  preamble : List NumberedLine
  groups : TagKind → List TagGroup
  unknownTags : List (Nat × String)
  current : Option TagKind

namespace ForwardPass

def start : ForwardPass := ⟨[], fun _ => [], [], none⟩

/-- Take in one line. A plain line goes to the last group of the current kind. -/
def push (pass : ForwardPass) (line : NumberedLine) : ForwardPass :=
  match scanLine line.text with
  | .plain =>
    match pass.current.filter fun kind => !(pass.groups kind).isEmpty with
    | some kind =>
      { pass with
        groups := Function.update pass.groups kind
          ((pass.groups kind).modifyLast (TagGroup.addLine line)) }
    | none => { pass with preamble := pass.preamble ++ [line] }
  | .tag tag =>
    { pass with
      groups := Function.update pass.groups tag.kind
        (pass.groups tag.kind ++ [⟨line.index, tag, []⟩])
      current := some tag.kind }
  | .unknown name => { pass with unknownTags := pass.unknownTags ++ [(line.index, name)] }

/-- What a pass over all lines gathers. -/
def ofLines (lines : List String) : ForwardPass :=
  (NumberedLine.numbered 0 lines).foldl push start

/-- A pass has gathered what sections hold, and the current kind is that of the last group. -/
structure Gathers (pass : ForwardPass) (sections : Sections) : Prop where
  preamble : pass.preamble = sections.preamble
  groups : ∀ kind, pass.groups kind = sections.groups kind
  unknownTags : pass.unknownTags = sections.unknownTags
  current : pass.current = sections.allGroups.getLast?.map (·.tag.kind)

theorem gathers_start : start.Gathers (Sections.ofNumbered []) :=
  ⟨rfl, fun _ => rfl, rfl, rfl⟩

/-- One more line keeps a pass in step with the sections. -/
theorem Gathers.push {pass : ForwardPass} {sections : Sections} (h : pass.Gathers sections)
    (line : NumberedLine) : (pass.push line).Gathers (sections.push line) := by
  cases hscan : scanLine line.text with
  | unknown name =>
      simp only [ForwardPass.push, Sections.push, hscan]
      exact ⟨h.preamble, h.groups, by rw [h.unknownTags], h.current⟩
  | tag tag =>
      simp only [ForwardPass.push, Sections.push, hscan]
      refine ⟨h.preamble, fun kind => ?_, h.unknownTags, by simp⟩
      rw [Sections.groups_of_concat rfl]
      by_cases hkind : kind = tag.kind
      · subst hkind
        simp [h.groups, Sections.groups]
      · simp [hkind, h.groups, Sections.groups]
  | plain =>
      rcases List.eq_nil_or_concat sections.allGroups with hnone | ⟨groups, last, hlast⟩
      · have hcurrent : pass.current = none := by simp [h.current, hnone]
        simp only [ForwardPass.push, Sections.push, hscan, hcurrent, hnone]
        exact ⟨by simp [h.preamble], by simpa [Sections.groups, hnone] using h.groups,
          h.unknownTags, by simp⟩
      · rw [List.concat_eq_append] at hlast
        have hgroups := Sections.groups_of_concat hlast
        have hopen : pass.current.filter (fun kind => !(pass.groups kind).isEmpty) =
            some last.tag.kind := by simp [h.current, hlast, h.groups, hgroups]
        have hpushed : sections.push line =
            { sections with allGroups := groups ++ [last.addLine line] } := by
          simp [Sections.push, hscan, hlast, List.modifyLast_concat]
        rw [hpushed]
        simp only [ForwardPass.push, hscan, hopen]
        refine ⟨h.preamble, fun kind => ?_, h.unknownTags, ?_⟩
        · rw [Sections.groups_of_concat rfl]
          by_cases hkind : kind = last.tag.kind
          · subst hkind
            simp [h.groups, hgroups, List.modifyLast_concat, TagGroup.addLine]
          · simp [hkind, h.groups, hgroups, TagGroup.addLine]
        · simp [h.current, hlast, TagGroup.addLine]

/-- A pass that goes on over more lines gathers what they add to the sections of those in front. -/
theorem Gathers.foldl {pass : ForwardPass} {front : List NumberedLine}
    (h : pass.Gathers (Sections.ofNumbered front)) (lines : List NumberedLine) :
    (lines.foldl ForwardPass.push pass).Gathers (Sections.ofNumbered (front ++ lines)) := by
  induction lines generalizing pass front with
  | nil => simpa using h
  | cons line lines ih =>
      have hnext := h.push line
      rw [← Sections.ofNumbered_concat] at hnext
      simpa using ih hnext

/-- The pass over a document gathers its sections. -/
theorem gathers_ofLines (lines : List String) :
    (ofLines lines).Gathers (Sections.ofLines lines) := by
  rw [Sections.ofLines, Sections.ofLinesFrom_eq_ofNumbered]
  exact gathers_start.foldl _

end ForwardPass
end AnnotatedEnv
