/-
Module: AnnotatedEnv.Proofs.ListedValues
Purpose: The values that the lines of a body list.
Main exports: Constraints.ListedValues, Constraints.BodyLists, Constraints.bodyLists_iff,
  Constraints.valuesOf_eq_flatMap, Constraints.valuesOf_eq_iff, Constraints.bodyLists_iff_joined,
  Constraints.IsValue, Constraints.bodyLists_rows_iff, Constraints.bodyLists_rows_of_isValue
The lines of a body are joined with commas before the values are taken. Since a comma ends an entry
as the end of a line does, every line lists its values on its own.
-/
import Mathlib.Data.List.Basic
import AnnotatedEnv.Model.Constraints
import AnnotatedEnv.Proofs.Openers

namespace AnnotatedEnv

open Text

namespace Constraints

/-! ### Values -/

/-- The values that entries are when the blanks around them are dropped. An entry of which nothing
is left lists nothing. -/
inductive ListedValues : (entries : List (List Char)) → (values : List String) → Prop where
  | nil : ListedValues [] []
  | value {entry : List Char} {entries : List (List Char)} {value : String} {values : List String}
      (trims : Trims entry value.toList) (filled : value ≠ "")
      (behind : ListedValues entries values) : ListedValues (entry :: entries) (value :: values)
  | empty {entry : List Char} {entries : List (List Char)} {values : List String}
      (trims : Trims entry []) (behind : ListedValues entries values) :
      ListedValues (entry :: entries) values

/-- The values that the lines of a body list: line by line, between the commas of its content. -/
inductive BodyLists : (lines values : List String) → Prop where
  | nil : BodyLists [] []
  | line {line : String} {content : List Char} {entries : List (List Char)}
      {lines values listed : List String} (uncomments : Uncomments line.toList content)
      (separated : CommaSeparated content entries) (lists : ListedValues entries values)
      (behind : BodyLists lines listed) : BodyLists (line :: lines) (values ++ listed)

/-- A text that is listed as it is. -/
structure IsValue (value : String) : Prop where
  filled : value ≠ ""
  whole : ',' ∉ value.toList
  trimmed : Trims value.toList value.toList

/-- A comment line that lists the texts, with commas between them. -/
def rowLine (row : List String) : String := "// " ++ ",".intercalate row

/-- The values that one line of a body lists. -/
def valuesOfLine (line : String) : List String := valuesIn (uncomment line).toList

/-- Trimming the entries and dropping the empty ones gives the values they list. -/
theorem listedValues_iff (entries : List (List Char)) (values : List String) :
    ((entries.map trim).filter (!·.isEmpty)).map String.ofList = values ↔
      ListedValues entries values := by
  constructor
  · rintro rfl
    induction entries with
    | nil => exact .nil
    | cons entry entries ih =>
        have htrims : Trims entry (trim entry) := (trim_eq_iff entry _).1 rfl
        rw [List.map_cons, List.filter_cons]
        split
        · next hfilled =>
          refine .value ?_ ?_ ih
          · rwa [String.toList_ofList]
          · simpa using hfilled
        · next hempty =>
          have hnone : trim entry = [] := by simpa using hempty
          exact .empty (hnone ▸ htrims) ih
  · intro h
    induction h with
    | nil => rfl
    | @value entry _ value _ trims filled _ ih =>
        have hfilled : (!value.toList.isEmpty) = true := by simpa using filled
        rw [List.map_cons, (trim_eq_iff _ _).2 trims, List.filter_cons, if_pos hfilled,
          List.map_cons, ih, String.ofList_toList]
    | empty trims _ ih =>
        rw [List.map_cons, (trim_eq_iff _ _).2 trims, List.filter_cons, if_neg (by simp), ih]

/-- The values of a text are those that its entries list. -/
theorem valuesIn_eq_iff (text : List Char) (values : List String) :
    valuesIn text = values ↔
      ∃ entries, CommaSeparated text entries ∧ ListedValues entries values := by
  rw [valuesIn, listedValues_iff]
  constructor
  · exact fun h => ⟨_, commaSeparated_pieces text, h⟩
  · rintro ⟨entries, hentries, h⟩
    rwa [(pieces_comma_eq_iff _ _).2 hentries]

/-- The values of lines, taken one line after another, are those that a body lists. -/
theorem bodyLists_iff (lines values : List String) :
    lines.flatMap valuesOfLine = values ↔ BodyLists lines values := by
  constructor
  · rintro rfl
    induction lines with
    | nil => exact .nil
    | cons line lines ih =>
        have hcontent := (uncomment_eq_iff line _).1 rfl
        obtain ⟨entries, hentries, hlists⟩ := (valuesIn_eq_iff (uncomment line).toList _).1 rfl
        exact .line hcontent hentries hlists ih
  · intro h
    induction h with
    | nil => rfl
    | @line line content entries lines values listed uncomments separated lists _ ih =>
        have hcontent : (uncomment line).toList = content := by
          rw [uncomment_of_uncomments uncomments, String.toList_ofList]
        have hvalues : valuesOfLine line = values := by
          rw [valuesOfLine, hcontent]
          exact (valuesIn_eq_iff _ _).2 ⟨entries, separated, lists⟩
        rw [List.flatMap_cons, hvalues, ih]

/-! ### Joined lines -/

/-- A comma parts the values in front of it from those behind. -/
theorem valuesIn_append_comma (front back : List Char) :
    valuesIn (front ++ ',' :: back) = valuesIn front ++ valuesIn back := by
  rw [valuesIn, pieces_append_cut (by decide), List.map_append, List.filter_append, List.map_append]
  rfl

/-- Texts list the same with commas between them as one after another. -/
theorem valuesIn_intercalate (texts : List String) :
    valuesIn (",".intercalate texts).toList = texts.flatMap fun text => valuesIn text.toList := by
  induction texts with
  | nil => rfl
  | cons text texts ih =>
      cases texts with
      | nil => simp
      | cons next texts =>
          rw [toList_intercalate_comma, valuesIn_append_comma, ih]
          rfl

/-- A group lists what the lines of its body list one after another. -/
theorem valuesOf_eq_flatMap (group : TagGroup) :
    valuesOf group = group.bodyTexts.flatMap valuesOfLine := by
  rw [valuesOf, valuesIn_intercalate, List.flatMap_map]
  rfl

/-- The values of a group are those that its body lists. -/
theorem valuesOf_eq_iff (group : TagGroup) (values : List String) :
    valuesOf group = values ↔ BodyLists group.bodyTexts values := by
  rw [valuesOf_eq_flatMap, bodyLists_iff]

/-- A body lists what its lines list when they are joined with commas. -/
theorem bodyLists_iff_joined (lines values : List String) :
    BodyLists lines values ↔
      ∃ entries, CommaSeparated (",".intercalate (lines.map uncomment)).toList entries ∧
        ListedValues entries values := by
  rw [← valuesIn_eq_iff, valuesIn_intercalate, List.flatMap_map, ← bodyLists_iff]
  rfl

/-! ### Rows of values -/

theorem valuesOfLine_rowLine (row : List String) :
    valuesOfLine (rowLine row) = row.flatMap fun text => valuesIn text.toList := by
  rw [valuesOfLine, rowLine, uncomment_comment, valuesIn_intercalate]

/-- Rows of values list what one row of all the values lists. -/
theorem bodyLists_rows_iff (rows : List (List String)) (values : List String) :
    BodyLists (rows.map rowLine) values ↔ BodyLists [rowLine rows.flatten] values := by
  rw [← bodyLists_iff, ← bodyLists_iff, List.flatMap_singleton, List.flatMap_map]
  simp only [valuesOfLine_rowLine]
  rw [← List.flatMap_id, List.flatMap_assoc]
  rfl

theorem valuesIn_of_isValue {value : String} (h : IsValue value) :
    valuesIn value.toList = [value] := by
  refine (valuesIn_eq_iff _ _).2 ⟨[value.toList], .last h.whole, ?_⟩
  exact .value h.trimmed h.filled .nil

/-- Rows of plain values list these values. -/
theorem bodyLists_rows_of_isValue {rows : List (List String)}
    (h : ∀ value ∈ rows.flatten, IsValue value) : BodyLists (rows.map rowLine) rows.flatten := by
  rw [bodyLists_rows_iff, ← bodyLists_iff, List.flatMap_singleton, valuesOfLine_rowLine,
    List.flatMap_congr fun value hvalue => valuesIn_of_isValue (h value hvalue),
    List.flatMap_singleton']

end Constraints

end AnnotatedEnv
