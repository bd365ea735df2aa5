/-
Module: AnnotatedEnv.Proofs.RepeatedModes
Purpose: What lines assign together, and what the groups of one mode make up together.
Main exports: Assignment.LastAssigns, Assignment.Assigns, Assignment.parseAll_append,
  Assignment.parseAll_eq_iff, Modes.taggedIds, Modes.linesOf, Modes.MakesUp, Modes.joinedGroups,
  Modes.get?_ofGroups, Modes.ofGroups_joinedGroups, Modes.repeated_groups_join
Reading the groups of a mode one after another and extending the preset each time comes to the same
as reading the bodies of all of them at once.
-/
import AnnotatedEnv.Model.Modes
import AnnotatedEnv.Proofs.FirstOccurrences

namespace AnnotatedEnv

namespace Assignment

/-! ### The lines of a body -/

/-- Some line gives the key the value, and no later line assigns the key. -/
def LastAssigns (lines : List String) (key value : String) : Prop :=
  ∃ front line back, lines = front ++ line :: back ∧ parse? line = some ⟨key, value⟩ ∧
    ∀ later ∈ back, ∀ a, parse? later = some a → a.key ≠ key

/-- The settings have the assigned keys in the order in which they are first assigned, each one
with its last value. -/
structure Assigns (lines : List String) (settings : Settings) : Prop where
  keys : FirstOccurrences ((lines.filterMap parse?).map (·.key)) settings.keys
  values : ∀ key value, settings.get? key = some value ↔ LastAssigns lines key value

theorem not_lastAssigns_nil (key value : String) : ¬ LastAssigns [] key value := by
  rintro ⟨front, line, back, hlines, _⟩
  exact absurd hlines (by simp)

/-- The last line decides about the keys that it assigns. -/
theorem lastAssigns_concat_iff (lines : List String) (line key value : String) :
    LastAssigns (lines ++ [line]) key value ↔
      parse? line = some ⟨key, value⟩ ∨
        (∀ a, parse? line = some a → a.key ≠ key) ∧ LastAssigns lines key value := by
  constructor
  · rintro ⟨front, assigning, back, hlines, hassigns, hlater⟩
    rcases List.eq_nil_or_concat back with rfl | ⟨between, last, rfl⟩
    · obtain ⟨rfl, hline⟩ := List.append_inj' hlines rfl
      obtain rfl : line = assigning := by simpa using hline
      exact Or.inl hassigns
    · rw [List.concat_eq_append, ← List.cons_append, ← List.append_assoc] at hlines
      obtain ⟨rfl, hline⟩ := List.append_inj' hlines rfl
      obtain rfl : line = last := by simpa using hline
      refine Or.inr ⟨hlater line (by simp), front, assigning, between, rfl, hassigns, ?_⟩
      exact fun later hmem => hlater later (by simp [hmem])
  · rintro (hassigns | ⟨hother, front, assigning, back, rfl, hassigns, hlater⟩)
    · exact ⟨lines, line, [], rfl, hassigns, by simp⟩
    · refine ⟨front, assigning, back ++ [line], by simp, hassigns, fun later hmem => ?_⟩
      rcases List.mem_append.1 hmem with hmem | hmem
      · exact hlater later hmem
      · rwa [List.mem_singleton.1 hmem]

/-- One more line inserts what it assigns. -/
theorem parseAll_concat (lines : List String) (line : String) :
    parseAll (lines ++ [line]) =
      (parse? line).elim (parseAll lines) fun a => (parseAll lines).insert a.key a.value := by
  simp only [parseAll, List.filterMap_append, List.map_append, OrderedMap.ofList_append]
  cases hparse : parse? line <;> simp [hparse, OrderedMap.insertAll]

/-- Of the lines that assign a key the last one counts. -/
theorem get?_parseAll_eq_some_iff (lines : List String) (key value : String) :
    (parseAll lines).get? key = some value ↔ LastAssigns lines key value := by
  induction lines using List.reverseRecOn with
  | nil =>
      have hnone : (parseAll []).get? key = none := rfl
      simp [hnone, not_lastAssigns_nil]
  | append_singleton lines line ih =>
      rw [parseAll_concat, lastAssigns_concat_iff, ← ih]
      cases hparse : parse? line with
      | none => simp
      | some a =>
          rcases a with ⟨k, v⟩
          by_cases hkey : key = k
          · subst hkey
            simp [OrderedMap.get?_insert]
          · have hkey' : ¬ k = key := fun heq => hkey heq.symm
            simp [OrderedMap.get?_insert, hkey, hkey']

/-- What lines assign together is told by the first and the last line for every key. -/
theorem parseAll_eq_iff (lines : List String) (settings : Settings) :
    parseAll lines = settings ↔ Assigns lines settings := by
  have hkeys : FirstOccurrences ((lines.filterMap parse?).map (·.key)) (parseAll lines).keys := by
    have hpairs := OrderedMap.firstOccurrences_ofList
      ((lines.filterMap parse?).map fun a => (a.key, a.value))
    rwa [List.map_map] at hpairs
  constructor
  · rintro rfl
    exact ⟨hkeys, get?_parseAll_eq_some_iff lines⟩
  · intro h
    refine OrderedMap.ext_get? (hkeys.unique h.keys) fun key _ => Option.ext fun value => ?_
    rw [get?_parseAll_eq_some_iff, h.values]

/-- Lines can be read in two parts, the later part over the earlier one. -/
theorem parseAll_append (xs ys : List String) :
    parseAll (xs ++ ys) = (parseAll xs).extend (parseAll ys) := by
  simp only [parseAll, List.filterMap_append, List.map_append]
  rw [OrderedMap.extend_ofList, OrderedMap.ofList_append]

end Assignment

namespace Modes

open Assignment

/-! ### The groups of an id -/

/-- Whether the tag of a group names the id. -/
def names (id : ModeId) (group : TagGroup) : Bool := ModeId.ofPayload group.tag.payload = .ok id

/-- The ids that the well-formed tags name, in source order. -/
def taggedIds (groups : List TagGroup) : List ModeId :=
  groups.filterMap fun group => (ModeId.ofPayload group.tag.payload).toOption

/-- The bodies of all groups of an id in source order, without comment openers. -/
def linesOf (id : ModeId) (groups : List TagGroup) : List String :=
  (groups.filter (names id)).flatMap fun group => group.bodyTexts.map uncomment

/-- The groups make up the preset: the first group of its id gives the place, and all of them
together give the overrides. -/
structure MakesUp (groups : List TagGroup) (preset : ModeGroup) : Prop where
  first : ∃ front group back, groups = front ++ group :: back ∧
    ModeId.ofPayload group.tag.payload = .ok preset.id ∧
    (∀ earlier ∈ front, ModeId.ofPayload earlier.tag.payload ≠ .ok preset.id) ∧
    preset.tagLine = group.tagLine
  overrides : preset.overrides = parseAll (linesOf preset.id groups)

/-- One group in place of all groups of an id: the first of them with the bodies of all. -/
def joined? (groups : List TagGroup) (id : ModeId) : Option TagGroup :=
  (groups.find? (names id)).map fun first =>
    { first with body := (groups.filter (names id)).flatMap (·.body) }

/-- The groups with all groups of an id joined into one, for every id. -/
def joinedGroups (groups : List TagGroup) : List TagGroup :=
  (taggedIds groups).eraseDups.filterMap (joined? groups)

/-- The preset that groups make up for an id, if any of them has the id. -/
def preset? (groups : List TagGroup) (id : ModeId) : Option ModeGroup :=
  (groups.find? (names id)).map fun first => ⟨id, first.tagLine, parseAll (linesOf id groups)⟩

theorem names_eq_true_iff (id : ModeId) (group : TagGroup) :
    names id group = true ↔ ModeId.ofPayload group.tag.payload = .ok id := decide_eq_true_iff

/-- The preset of an identifier is made up of the groups that name it. -/
theorem preset?_eq_some_iff (groups : List TagGroup) (id : ModeId) (preset : ModeGroup) :
    preset? groups id = some preset ↔ preset.id = id ∧ MakesUp groups preset := by
  rw [preset?, Option.map_eq_some_iff]
  constructor
  · rintro ⟨group, hfind, rfl⟩
    obtain ⟨hnames, front, back, rfl, hfront⟩ := List.find?_eq_some_iff_append.1 hfind
    refine ⟨rfl, ⟨front, group, back, rfl, (names_eq_true_iff id group).1 hnames, ?_, rfl⟩, rfl⟩
    intro earlier hmem hpayload
    exact absurd (hfront earlier hmem) (by simp [(names_eq_true_iff id earlier).2 hpayload])
  · rintro ⟨rfl, ⟨front, group, back, hgroups, hpayload, hfront, hline⟩, hoverrides⟩
    refine ⟨group, List.find?_eq_some_iff_append.2 ⟨(names_eq_true_iff _ _).2 hpayload, front, back,
      hgroups, fun earlier hmem => ?_⟩, ?_⟩
    · have hother := hfront earlier hmem
      rw [ne_eq, ← names_eq_true_iff] at hother
      simpa using hother
    · rw [← hline, ← hoverrides]

/-! ### Taking in one group -/

theorem linesOf_concat (id : ModeId) (groups : List TagGroup) (group : TagGroup) :
    linesOf id (groups ++ [group]) =
      linesOf id groups ++ if names id group then group.bodyTexts.map uncomment else [] := by
  rw [linesOf, linesOf, List.filter_append, List.flatMap_append]
  cases hnames : names id group <;> simp [hnames]

theorem get?_addGroup_of_not_names (modes : Modes) {group : TagGroup} {id : ModeId}
    (h : names id group = false) : (modes.addGroup group).get? id = modes.get? id := by
  unfold addGroup
  split
  · rfl
  · next found hpayload =>
    have hother : ¬ id = found := by
      rintro rfl
      rw [(names_eq_true_iff id group).2 hpayload] at h
      exact absurd h (by simp)
    split
    · rw [OrderedMap.get?_replace, if_neg hother]
    · rw [OrderedMap.get?_insert, if_neg hother]

theorem get?_addGroup_of_names (modes : Modes) {group : TagGroup} {id : ModeId}
    (h : names id group = true) :
    (modes.addGroup group).get? id =
      some ((modes.get? id).elim ⟨id, group.tagLine, overridesOf group⟩ fun known =>
        { known with overrides := known.overrides.extend (overridesOf group) }) := by
  simp only [addGroup, (names_eq_true_iff id group).1 h]
  cases hget : modes.get? id with
  | none => simp [OrderedMap.get?_insert]
  | some known => simp [OrderedMap.get?_replace, hget]

theorem firstOccurrences_addGroup {modes : Modes} {ids : List ModeId}
    (h : FirstOccurrences ids modes.keys) (group : TagGroup) :
    FirstOccurrences (ids ++ taggedIds [group]) (modes.addGroup group).keys := by
  unfold addGroup taggedIds
  split
  · next hpayload => simpa [hpayload, Except.toOption] using h
  · next id hpayload =>
    have hids : ([group].filterMap fun g => (ModeId.ofPayload g.tag.payload).toOption) = [id] := by
      simp [hpayload, Except.toOption]
    rw [hids]
    split
    · next known hget =>
      rw [OrderedMap.keys_replace]
      exact h.concat_of_mem (OrderedMap.mem_keys_of_get? hget)
    · exact OrderedMap.firstOccurrences_insert h id _

/-! ### Taking in all groups -/

theorem ofGroups_concat (groups : List TagGroup) (group : TagGroup) :
    ofGroups (groups ++ [group]) = (ofGroups groups).addGroup group := by
  rw [ofGroups, List.foldl_append]
  rfl

theorem firstOccurrences_ofGroups (groups : List TagGroup) :
    FirstOccurrences (taggedIds groups) (ofGroups groups).keys := by
  induction groups using List.reverseRecOn with
  | nil => exact .nil
  | append_singleton groups group ih =>
      rw [ofGroups_concat, taggedIds, List.filterMap_append]
      exact firstOccurrences_addGroup ih group

/-- An id has the preset that its groups make up. -/
theorem get?_ofGroups (groups : List TagGroup) (id : ModeId) :
    (ofGroups groups).get? id = preset? groups id := by
  induction groups using List.reverseRecOn with
  | nil => rfl
  | append_singleton groups group ih =>
      rw [ofGroups_concat, preset?, List.find?_append, linesOf_concat]
      cases hnames : names id group with
      | false =>
          rw [get?_addGroup_of_not_names _ hnames, ih, preset?]
          simp [hnames]
      | true =>
          rw [get?_addGroup_of_names _ hnames, ih, preset?]
          cases hfind : groups.find? (names id) with
          | none =>
              have hlines : linesOf id groups = [] := by
                have hfilter : groups.filter (names id) = [] :=
                  List.filter_eq_nil_iff.2 (List.find?_eq_none.1 hfind)
                rw [linesOf, hfilter, List.flatMap_nil]
              simp [hnames, hlines, overridesOf]
          | some first => simp [overridesOf, parseAll_append]

/-! ### Joining the groups of an id -/

theorem mem_taggedIds_iff (groups : List TagGroup) (id : ModeId) :
    id ∈ taggedIds groups ↔ (groups.find? (names id)).isSome = true := by
  rw [taggedIds, List.mem_filterMap, List.find?_isSome]
  refine exists_congr fun group => and_congr_right fun _ => ?_
  rw [names_eq_true_iff]
  cases ModeId.ofPayload group.tag.payload <;> simp [Except.toOption]

theorem isSome_joined?_iff (groups : List TagGroup) (id : ModeId) :
    (joined? groups id).isSome = true ↔ id ∈ taggedIds groups := by
  rw [joined?, Option.isSome_map, mem_taggedIds_iff]

theorem ofPayload_joined? {groups : List TagGroup} {id : ModeId} {group : TagGroup}
    (h : joined? groups id = some group) : ModeId.ofPayload group.tag.payload = .ok id := by
  obtain ⟨first, hfirst, rfl⟩ := Option.map_eq_some_iff.1 h
  exact (names_eq_true_iff id first).1 (List.find?_some hfirst)

/-- Joining gives one group for each id. -/
theorem taggedIds_filterMap_joined? {groups : List TagGroup} {ids : List ModeId}
    (h : ∀ id ∈ ids, id ∈ taggedIds groups) : taggedIds (ids.filterMap (joined? groups)) = ids := by
  induction ids with
  | nil => rfl
  | cons id ids ih =>
      obtain ⟨hid, hrest⟩ := List.forall_mem_cons.1 h
      obtain ⟨group, hgroup⟩ := Option.isSome_iff_exists.1 ((isSome_joined?_iff groups id).2 hid)
      have hname : (ModeId.ofPayload group.tag.payload).toOption = some id := by
        rw [ofPayload_joined? hgroup]
        rfl
      rw [List.filterMap_cons_some hgroup, taggedIds, List.filterMap_cons, hname]
      exact congrArg (List.cons id) (ih hrest)

theorem filter_names_filterMap_joined? {groups : List TagGroup} {ids : List ModeId}
    (hnodup : ids.Nodup) (id : ModeId) :
    (ids.filterMap (joined? groups)).filter (names id) =
      if id ∈ ids then (joined? groups id).toList else [] := by
  induction ids with
  | nil => rfl
  | cons k ids ih =>
      obtain ⟨hnew, hrest⟩ := List.nodup_cons.1 hnodup
      have hids := ih hrest
      rw [List.filterMap_cons]
      by_cases hk : id = k
      · subst hk
        rw [if_neg hnew] at hids
        rw [if_pos List.mem_cons_self]
        split
        · next hnone => simpa [hnone] using hids
        · next group hgroup =>
          have hnames := (names_eq_true_iff id group).2 (ofPayload_joined? hgroup)
          simp [hgroup, hnames, hids]
      · have hmem : (id ∈ k :: ids) = (id ∈ ids) := by simp [hk]
        simp only [hmem]
        split
        · exact hids
        · next group hgroup =>
          have hnames : names id group = false := by
            simp [names, ofPayload_joined? hgroup, Ne.symm hk]
          rw [List.filter_cons, if_neg (by simp [hnames]), hids]

theorem preset?_joinedGroups (groups : List TagGroup) (id : ModeId) :
    preset? (joinedGroups groups) id = preset? groups id := by
  have hdistinct := (firstOccurrences_eraseDups (taggedIds groups)).nodup
  have hfilter : (joinedGroups groups).filter (names id) = (joined? groups id).toList := by
    rw [joinedGroups, filter_names_filterMap_joined? hdistinct]
    split
    · rfl
    · next hmem =>
      rw [List.mem_eraseDups, ← isSome_joined?_iff] at hmem
      simp [Option.not_isSome_iff_eq_none.1 hmem]
  rw [preset?, preset?, ← List.head?_filter, linesOf, hfilter, joined?]
  cases groups.find? (names id) with
  | none => rfl
  | some first => simp [linesOf, TagGroup.bodyTexts, List.map_flatMap]

/-- Groups of one id may be joined into one group. -/
theorem ofGroups_joinedGroups (groups : List TagGroup) :
    ofGroups (joinedGroups groups) = ofGroups groups := by
  have hfirst := firstOccurrences_eraseDups (taggedIds groups)
  have hids : taggedIds (joinedGroups groups) = (taggedIds groups).eraseDups :=
    taggedIds_filterMap_joined? fun id hid => List.mem_eraseDups.1 hid
  have hjoined : (ofGroups (joinedGroups groups)).keys = (taggedIds groups).eraseDups := by
    have hkeys := firstOccurrences_ofGroups (joinedGroups groups)
    rw [hids] at hkeys
    exact hkeys.unique (.of_nodup hfirst.nodup)
  refine OrderedMap.ext_get? ?_ fun id _ => ?_
  · exact hjoined.trans (hfirst.unique (firstOccurrences_ofGroups groups))
  · rw [get?_ofGroups, get?_ofGroups, preset?_joinedGroups]

/-- The ids are those of the well-formed tags in the order of their first groups, and the preset of
an id is what its groups make up together, as if they were one group. The overrides of a preset are
read from the bodies joined in source order, and reading two lists of lines one over the other is
reading them joined. -/
theorem repeated_groups_join :
    (∀ groups : List TagGroup,
        FirstOccurrences (taggedIds groups) (ofGroups groups).keys ∧
          (∀ (id : ModeId) (preset : ModeGroup),
            (ofGroups groups).get? id = some preset ↔ preset.id = id ∧ MakesUp groups preset) ∧
          ofGroups (joinedGroups groups) = ofGroups groups) ∧
      (∀ (lines : List String) (settings : Settings),
        parseAll lines = settings ↔ Assigns lines settings) ∧
      ∀ xs ys : List String, parseAll (xs ++ ys) = (parseAll xs).extend (parseAll ys) := by
  refine ⟨fun groups => ⟨firstOccurrences_ofGroups groups, fun id preset => ?_,
    ofGroups_joinedGroups groups⟩, parseAll_eq_iff, parseAll_append⟩
  rw [get?_ofGroups]
  exact preset?_eq_some_iff groups id preset

/-- A known key of a later group keeps its place, and a group without an id between them is passed
over. -/
example :
    (ofGroups
        [⟨0, ⟨.mode, some "e.a"⟩, [⟨1, "// B=1"⟩, ⟨2, "C=1"⟩]⟩,
          ⟨3, ⟨.mode, some "e"⟩, [⟨4, "B=9"⟩]⟩,
          ⟨5, ⟨.mode, some "e.a"⟩, [⟨6, "// A=2"⟩, ⟨7, "// C=2"⟩]⟩]).entries =
      [(⟨"e", "a"⟩, ⟨⟨"e", "a"⟩, 0, .ofList [("B", "1"), ("C", "2"), ("A", "2")]⟩)] := by
  decide +kernel

end Modes

end AnnotatedEnv
