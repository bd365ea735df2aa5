/-
Module: AnnotatedEnv.Proofs.Renumber
Purpose: Reading lines commutes with giving them other numbers and with cutting them at tags.
Main exports: NumberedLine.moved, Sections.ofNumbered, Sections.ofNumbered_moved,
  Sections.ofNumbered_append, Contents, Model.contents_ofDocument, Sections.contents_moved
The number of a line is passed through to the groups, the presets and the place to write, and
nothing else depends on it.
-/
import AnnotatedEnv.Proofs.Model
import AnnotatedEnv.Proofs.Regroup

namespace AnnotatedEnv

/-! ### Lines with other numbers -/

namespace NumberedLine

/-- The line with the number that `f` gives it. -/
def moved (f : Nat → Nat) (line : NumberedLine) : NumberedLine :=
  { line with index := f line.index }

@[simp] theorem text_moved (f : Nat → Nat) (line : NumberedLine) :
    (line.moved f).text = line.text := rfl

@[simp] theorem index_moved (f : Nat → Nat) (line : NumberedLine) :
    (line.moved f).index = f line.index := rfl

theorem numbered_append (i : Nat) (front back : List String) :
    numbered i (front ++ back) = numbered i front ++ numbered (i + front.length) back := by
  induction front generalizing i with
  | nil => rfl
  | cons line front ih =>
      simp [numbered, ih (i + 1), Nat.add_assoc, Nat.add_comm 1]

/-- Numbering lines keeps their texts. -/
theorem map_text_numbered (i : Nat) (lines : List String) :
    (numbered i lines).map (·.text) = lines := by
  induction lines generalizing i with
  | nil => rfl
  | cons line lines ih => simp [numbered, ih (i + 1)]

/-- Numbers that count on are moved to numbers that count on. -/
theorem map_moved_numbered {f : Nat → Nat} {i j : Nat} {lines : List String}
    (h : ∀ n < lines.length, f (i + n) = j + n) :
    (numbered i lines).map (moved f) = numbered j lines := by
  induction lines generalizing i j with
  | nil => rfl
  | cons line lines ih =>
      have hfirst : f i = j := h 0 (by simp)
      have hrest : (numbered (i + 1) lines).map (moved f) = numbered (j + 1) lines := by
        refine ih fun n hn => ?_
        have hnext := h (n + 1) (by simpa using hn)
        rw [Nat.add_assoc, Nat.add_comm 1, hnext]
        omega
      simp [numbered, moved, hfirst, hrest]

theorem map_moved_const (i j : Nat) (lines : List String) :
    (numbered i lines).map (moved fun _ => j) = lines.map fun text => ⟨j, text⟩ := by
  induction lines generalizing i with
  | nil => rfl
  | cons line lines ih => simp [numbered, moved, ih (i + 1)]

end NumberedLine

def TagGroup.moved (f : Nat → Nat) (group : TagGroup) : TagGroup :=
  { group with tagLine := f group.tagLine, body := group.body.map (NumberedLine.moved f) }

@[simp] theorem TagGroup.tag_moved (f : Nat → Nat) (group : TagGroup) :
    (group.moved f).tag = group.tag := rfl

@[simp] theorem TagGroup.bodyTexts_moved (f : Nat → Nat) (group : TagGroup) :
    (group.moved f).bodyTexts = group.bodyTexts := by
  simp [moved, bodyTexts]

namespace Sections

def moved (f : Nat → Nat) (sections : Sections) : Sections where
  preamble := sections.preamble.map (NumberedLine.moved f)
  allGroups := sections.allGroups.map (TagGroup.moved f)
  unknownTags := sections.unknownTags.map fun (line, name) => (f line, name)

theorem groups_moved (f : Nat → Nat) (sections : Sections) (kind : TagKind) :
    (sections.moved f).groups kind = (sections.groups kind).map (TagGroup.moved f) := by
  rw [groups, groups, moved, List.filter_map]
  rfl

/-- Cut lines that have a number already. -/
def ofNumbered : List NumberedLine → Sections
  | [] => ⟨[], [], []⟩
  | line :: lines =>
    let rest := ofNumbered lines
    match scanLine line.text with
    | .plain => { rest with preamble := line :: rest.preamble }
    | .tag tag =>
      { rest with
        preamble := []
        allGroups := ⟨line.index, tag, rest.preamble⟩ :: rest.allGroups }
    | .unknown name => { rest with unknownTags := (line.index, name) :: rest.unknownTags }

/-- Lines are cut alike whether they are counted on the way or before. -/
theorem ofLinesFrom_eq_ofNumbered (i : Nat) (lines : List String) :
    ofLinesFrom i lines = ofNumbered (NumberedLine.numbered i lines) := by
  induction lines generalizing i with
  | nil => rfl
  | cons line lines ih =>
      have hrest := ih (i + 1)
      cases hscan : scanLine line <;>
        simp [ofLinesFrom, NumberedLine.numbered, ofNumbered, hscan, hrest]

/-- Cutting moved lines moves the sections. -/
theorem ofNumbered_moved (f : Nat → Nat) (lines : List NumberedLine) :
    ofNumbered (lines.map (NumberedLine.moved f)) = (ofNumbered lines).moved f := by
  induction lines with
  | nil => rfl
  | cons line lines ih =>
      rw [List.map_cons, ofNumbered, ofNumbered, ih, NumberedLine.text_moved]
      cases scanLine line.text <;> rfl

/-! ### Pieces of a document -/

/-- The sections of lines with lines behind them that begin with a tag. -/
def append (front back : Sections) : Sections :=
  ⟨front.preamble, front.allGroups ++ back.allGroups, front.unknownTags ++ back.unknownTags⟩

/-- The lines begin with a tag line, if there are any. -/
def BeginTagged (lines : List NumberedLine) : Prop :=
  ∀ line ∈ lines.head?, isTagged line.text = true

theorem preamble_of_beginTagged {lines : List NumberedLine} (h : BeginTagged lines) :
    (ofNumbered lines).preamble = [] := by
  cases lines with
  | nil => rfl
  | cons line lines =>
      have hline : isTagged line.text = true := h line rfl
      cases hscan : scanLine line.text with
      | tag tag => simp [ofNumbered, hscan]
      | plain => simp [isTagged, hscan] at hline
      | unknown name => simp [isTagged, hscan] at hline

/-- Lines can be cut apart in front of a tag line. -/
theorem ofNumbered_append {back : List NumberedLine} (h : BeginTagged back)
    (front : List NumberedLine) :
    ofNumbered (front ++ back) = (ofNumbered front).append (ofNumbered back) := by
  induction front with
  | nil =>
      have hpreamble := preamble_of_beginTagged h
      rw [List.nil_append, append]
      simp [ofNumbered, ← hpreamble]
  | cons line front ih =>
      rw [List.cons_append, ofNumbered, ofNumbered, ih]
      cases scanLine line.text <;> rfl

theorem allGroups_of_untagged {lines : List NumberedLine}
    (h : ∀ line ∈ lines, isTagged line.text = false) : (ofNumbered lines).allGroups = [] := by
  induction lines with
  | nil => rfl
  | cons line lines ih =>
      have hrest := ih fun l hl => h l (List.mem_cons_of_mem _ hl)
      have hline : isTagged line.text = false := h line (by simp)
      cases hscan : scanLine line.text with
      | plain => simpa [ofNumbered, hscan] using hrest
      | unknown name => simpa [ofNumbered, hscan] using hrest
      | tag tag => simp [isTagged, hscan] at hline

/-- Cut at a tag, a document has the groups of both parts. -/
theorem groups_append (front back : Sections) (kind : TagKind) :
    (front.append back).groups kind = front.groups kind ++ back.groups kind :=
  List.filter_append _ _

end Sections

/-! ### Blocks, presets and constraints -/

def TemplateBlock.moved (f : Nat → Nat) (block : TemplateBlock) : TemplateBlock :=
  { block with tagLine := f block.tagLine }

theorem TemplateBlock.assignedKeys_moved (f : Nat → Nat) (body : List NumberedLine) :
    assignedKeys (body.map (NumberedLine.moved f)) =
      (assignedKeys body).map fun (line, key) => (f line, key) := by
  induction body with
  | nil => rfl
  | cons line body ih =>
      simp only [assignedKeys] at ih ⊢
      cases hparse : Assignment.parse? line.text with
      | none => simpa [hparse] using ih
      | some a => simpa [hparse] using ih

theorem TemplateBlock.ofGroups_moved (f : Nat → Nat) (groups : List TagGroup) :
    ofGroups (groups.map (TagGroup.moved f)) =
      (ofGroups groups).map (TemplateBlock.moved f) := by
  cases groups with
  | nil => rfl
  | cons first later =>
      have hlength : (assignedKeys (first.moved f).body).length =
          (assignedKeys first.body).length := by
        rw [TagGroup.moved, assignedKeys_moved, List.length_map]
      rw [List.map_cons, ofGroups, ofGroups, TagGroup.bodyTexts_moved, hlength]
      rfl

def ModeGroup.moved (f : Nat → Nat) (group : ModeGroup) : ModeGroup :=
  { group with tagLine := f group.tagLine }

namespace Pairs

variable {α β γ : Type} [DecidableEq α]

theorem find?_map_snd (f : β → γ) (k : α) (es : List (α × β)) :
    find? k (es.map fun e => (e.1, f e.2)) = (find? k es).map f := by
  induction es with
  | nil => rfl
  | cons e es ih =>
      by_cases h : e.1 = k
      · simp [find?, h]
      · simp [find?, h, ih]

theorem insert_map_snd (f : β → γ) (k : α) (v : β) (es : List (α × β)) :
    insert k (f v) (es.map fun e => (e.1, f e.2)) = (insert k v es).map fun e => (e.1, f e.2) := by
  induction es with
  | nil => rfl
  | cons e es ih =>
      by_cases h : e.1 = k
      · simp [insert, h]
      · simp [insert, h, ih]

theorem replace_map_snd (f : β → γ) (k : α) (v : β) (es : List (α × β)) :
    replace k (f v) (es.map fun e => (e.1, f e.2)) =
      (replace k v es).map fun e => (e.1, f e.2) := by
  induction es with
  | nil => rfl
  | cons e es ih =>
      by_cases h : e.1 = k
      · simp [replace, h]
      · simp [replace, h, ih]

end Pairs

namespace Modes

def moved (f : Nat → Nat) (modes : Modes) : Modes where
  entries := modes.entries.map fun e => (e.1, e.2.moved f)
  nodup := by simpa [List.map_map, Function.comp_def] using modes.nodup

theorem get?_moved (f : Nat → Nat) (modes : Modes) (id : ModeId) :
    (modes.moved f).get? id = (modes.get? id).map (ModeGroup.moved f) :=
  Pairs.find?_map_snd (ModeGroup.moved f) id modes.entries

theorem insert_moved (f : Nat → Nat) (modes : Modes) (id : ModeId) (group : ModeGroup) :
    (modes.moved f).insert id (group.moved f) = moved f (modes.insert id group) :=
  OrderedMap.ext_entries (Pairs.insert_map_snd (ModeGroup.moved f) id group modes.entries)

theorem replace_moved (f : Nat → Nat) (modes : Modes) (id : ModeId) (group : ModeGroup) :
    (modes.moved f).replace id (group.moved f) = moved f (modes.replace id group) :=
  OrderedMap.ext_entries (Pairs.replace_map_snd (ModeGroup.moved f) id group modes.entries)

theorem addGroup_moved (f : Nat → Nat) (modes : Modes) (group : TagGroup) :
    (modes.moved f).addGroup (group.moved f) = (modes.addGroup group).moved f := by
  have hoverrides : overridesOf (group.moved f) = overridesOf group := by
    simp [overridesOf]
  rw [addGroup, addGroup, TagGroup.tag_moved, hoverrides]
  cases ModeId.ofPayload group.tag.payload with
  | error e => rfl
  | ok id =>
      simp only [get?_moved]
      cases modes.get? id with
      | none => exact insert_moved f modes id ⟨id, group.tagLine, overridesOf group⟩
      | some known =>
          exact replace_moved f modes id
            { known with overrides := known.overrides.extend (overridesOf group) }

theorem ofGroups_moved (f : Nat → Nat) (groups : List TagGroup) :
    ofGroups (groups.map (TagGroup.moved f)) = (ofGroups groups).moved f := by
  have hfold : ∀ modes : Modes, (groups.map (TagGroup.moved f)).foldl addGroup (modes.moved f) =
      (groups.foldl addGroup modes).moved f := by
    induction groups with
    | nil => exact fun _ => rfl
    | cons group groups ih =>
        intro modes
        rw [List.map_cons, List.foldl_cons, List.foldl_cons, addGroup_moved, ih]
  exact hfold .empty

end Modes

namespace Constraints

theorem addGroup_moved (f : Nat → Nat) (constraints : Constraints) (group : TagGroup) :
    constraints.addGroup (group.moved f) = constraints.addGroup group := by
  have hconstraint : constraintOf (group.moved f) = constraintOf group := by
    funext options
    simp [constraintOf, valuesOf]
  rw [addGroup, addGroup, TagGroup.tag_moved, hconstraint]

theorem ofGroups_moved (f : Nat → Nat) (groups : List TagGroup) :
    ofGroups (groups.map (TagGroup.moved f)) = ofGroups groups := by
  rw [ofGroups, ofGroups, List.foldl_map]
  simp only [addGroup_moved]

end Constraints

/-! ### What a model is made of -/

/-- What a model says of its document, the lines apart. -/
structure Contents where
  template : Settings
  baseline : Settings
  modes : Modes
  constraints : Constraints
  target : Option PatchTarget
  deriving DecidableEq, Repr

def PatchTarget.moved (f : Nat → Nat) (target : PatchTarget) : PatchTarget :=
  { target with tagLine := f target.tagLine }

namespace Contents

def moved (f : Nat → Nat) (contents : Contents) : Contents :=
  { contents with
    modes := contents.modes.moved f
    target := contents.target.map (PatchTarget.moved f) }

/-- The contents that the blocks, the presets and the constraints of a document give. -/
def ofParts (template? overwriting? : Option TemplateBlock) (modes : Modes)
    (constraints : Constraints) : Contents :=
  let template := (template?.map (·.settings)).getD .empty
  { template, modes, constraints
    baseline :=
      match overwriting? with
      | none => template
      | some block => Overwrite.apply constraints template block.settings
    target :=
      match overwriting? with
      | none => template?.map (·.target .template)
      | some block => some (block.target .overwritten) }

theorem ofParts_moved (f : Nat → Nat) (template? overwriting? : Option TemplateBlock)
    (modes : Modes) (constraints : Constraints) :
    ofParts (template?.map (TemplateBlock.moved f))
        (overwriting?.map (TemplateBlock.moved f)) (modes.moved f) constraints =
      (ofParts template? overwriting? modes constraints).moved f := by
  cases template? <;> cases overwriting? <;> rfl

end Contents

namespace Sections

/-- The first group of a kind, read as assignments. -/
def block? (sections : Sections) (kind : TagKind) : Option TemplateBlock :=
  TemplateBlock.ofGroups (sections.groups kind)

/-- The overwriting block, as far as the options honour it. -/
def honoured? (sections : Sections) (options : LoadOptions) : Option TemplateBlock :=
  if options.legacyOverwritten then sections.block? .overwritten else none

def contents (sections : Sections) (options : LoadOptions) : Contents :=
  .ofParts (sections.block? .template) (sections.honoured? options)
    (.ofGroups (sections.groups .mode)) (.ofGroups (sections.groups .value))

/-- The contents of a document depend on its groups only. -/
theorem contents_of_groups {s s' : Sections} {options : LoadOptions}
    (h : ∀ kind, s.groups kind = s'.groups kind) : s.contents options = s'.contents options := by
  simp only [contents, honoured?, block?, h]

theorem block?_moved (f : Nat → Nat) (sections : Sections) (kind : TagKind) :
    (sections.moved f).block? kind = (sections.block? kind).map (TemplateBlock.moved f) := by
  rw [block?, groups_moved, TemplateBlock.ofGroups_moved]
  rfl

theorem honoured?_moved (f : Nat → Nat) (sections : Sections) (options : LoadOptions) :
    (sections.moved f).honoured? options =
      (sections.honoured? options).map (TemplateBlock.moved f) := by
  rw [honoured?, honoured?, block?_moved]
  split <;> rfl

/-- Moved sections give moved contents. -/
theorem contents_moved (f : Nat → Nat) (sections : Sections) (options : LoadOptions) :
    (sections.moved f).contents options = (sections.contents options).moved f := by
  rw [contents, block?_moved, honoured?_moved, groups_moved, groups_moved, Modes.ofGroups_moved,
    Constraints.ofGroups_moved, Contents.ofParts_moved]
  rfl

end Sections

/-- What a model says of its document, the lines apart. -/
def Model.contents (m : Model) : Contents :=
  ⟨m.template, m.baseline, m.modes, m.constraints, m.target⟩

/-- A model is made from the sections of its document. -/
theorem Model.contents_ofDocument (d : Document) (options : LoadOptions) :
    (ofDocument d options).contents = (Sections.ofLines d.lines).contents options := by
  have hhonoured : d.honoured? options = (Sections.ofLines d.lines).honoured? options := rfl
  rw [contents, baseline_ofDocument, target_ofDocument, template_ofDocument, modes_ofDocument,
    constraints_ofDocument, hhonoured]
  rfl

end AnnotatedEnv
