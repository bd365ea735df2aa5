/-
Module: AnnotatedEnv.Proofs.KeyConstraint
Purpose: A key has the constraint of the last value group that names it.
Main exports: Text.BlankSeparated, Text.words_eq_iff, InputKind.ChosenBy, Constraint.Follows,
  TagGroup.Names, TagGroup.Gives, Constraints.LastGives, Constraints.NamedInOrder,
  Constraints.gives?_eq_some_iff, Constraints.last_group_constrains
What a group says of its keys is told by the parts of its tag and the lines of its body.
-/
import AnnotatedEnv.Proofs.ListedValues
import AnnotatedEnv.Proofs.ValuePayload

namespace AnnotatedEnv

open Text

/-! ### Words -/

namespace Text

/-- The words of a text, which blanks keep apart. -/
inductive BlankSeparated : (cs : List Char) → (texts : List (List Char)) → Prop where
  | none {blanks : List Char} (blank : ∀ c ∈ blanks, isBlank c = true) : BlankSeparated blanks []
  | word {front word behind : List Char} {texts : List (List Char)}
      (front_blank : ∀ c ∈ front, isBlank c = true) (filled : word ≠ [])
      (whole : ∀ c ∈ word, isBlank c = false) (ends : ∀ c ∈ behind.head?, isBlank c = true)
      (rest : BlankSeparated behind texts) :
      BlankSeparated (front ++ (word ++ behind)) (word :: texts)

/-- A blank ends the last word in front of it. -/
theorem words_append_blank {b : Char} (hb : isBlank b = true) (front back : List Char) :
    words (front ++ b :: back) = words front ++ words back := by
  rw [words, pieces_append_cut hb, List.filter_append, ← words, ← words]

/-- Blanks in front of the first word do not count. -/
theorem words_append_of_blanks {front : List Char} (hfront : ∀ c ∈ front, isBlank c = true)
    (cs : List Char) : words (front ++ cs) = words cs := by
  induction front with
  | nil => rfl
  | cons b front ih =>
      obtain ⟨hb, hrest⟩ := List.forall_mem_cons.1 hfront
      rw [← ih hrest]
      exact words_append_blank hb [] (front ++ cs)

/-- A word that ends at a blank is the first one. -/
theorem words_append_of_whole {word behind : List Char} (hne : word ≠ [])
    (hword : ∀ c ∈ word, isBlank c = false) (hends : ∀ c ∈ behind.head?, isBlank c = true) :
    words (word ++ behind) = word :: words behind := by
  have hone : words word = [word] := by
    rw [words, pieces_of_no_cut hword]
    simp [hne]
  cases behind with
  | nil =>
      rw [List.append_nil, hone]
      rfl
  | cons b behind =>
      have hb : isBlank b = true := hends b rfl
      have hbehind : words (b :: behind) = words behind := words_append_blank hb [] behind
      rw [hbehind, words_append_blank hb, hone, List.singleton_append]

theorem words_of_blankSeparated {cs : List Char} {texts : List (List Char)}
    (h : BlankSeparated cs texts) : words cs = texts := by
  induction h with
  | none blank =>
      have hnone := words_append_of_blanks blank []
      rwa [List.append_nil] at hnone
  | word front_blank filled whole ends _ ih =>
      rw [words_append_of_blanks front_blank, words_append_of_whole filled whole ends, ih]

/-- One more character in front extends the blanks or the word there, or begins a word. -/
theorem exists_blankSeparated (cs : List Char) : ∃ texts, BlankSeparated cs texts := by
  induction cs with
  | nil => exact ⟨[], .none (List.forall_mem_nil _)⟩
  | cons c cs ih =>
      obtain ⟨texts, htexts⟩ := ih
      cases hc : isBlank c with
      | true =>
          cases htexts with
          | none blank => exact ⟨[], .none (List.forall_mem_cons.2 ⟨hc, blank⟩)⟩
          | word front_blank filled whole ends rest =>
              exact ⟨_, .word (List.forall_mem_cons.2 ⟨hc, front_blank⟩) filled whole ends rest⟩
      | false =>
          have hword : ∀ d ∈ [c], isBlank d = false := by simpa using hc
          have hbegins : (∀ d ∈ cs.head?, isBlank d = true) → ∃ texts,
              BlankSeparated (c :: cs) texts := fun hends =>
            ⟨_, .word (List.forall_mem_nil _) (List.cons_ne_nil c []) hword hends htexts⟩
          cases htexts with
          | none blank => exact hbegins fun d hd => blank d (List.mem_of_head? hd)
          | @word front word behind _ front_blank filled whole ends rest =>
              cases front with
              | nil =>
                  have hlonger : ∀ d ∈ c :: word, isBlank d = false :=
                    List.forall_mem_cons.2 ⟨hc, whole⟩
                  exact ⟨_, .word (List.forall_mem_nil _) (List.cons_ne_nil c word) hlonger ends
                    rest⟩
              | cons b front =>
                  refine hbegins fun d hd => ?_
                  obtain rfl : b = d := by simpa using hd
                  exact front_blank b (by simp)

/-- The words of a text are what stands between its blanks, and nothing else. -/
theorem words_eq_iff (cs : List Char) (texts : List (List Char)) :
    words cs = texts ↔ BlankSeparated cs texts := by
  refine ⟨?_, words_of_blankSeparated⟩
  rintro rfl
  obtain ⟨texts, h⟩ := exists_blankSeparated cs
  rwa [words_of_blankSeparated h]

theorem blankSeparated_words (cs : List Char) :
    BlankSeparated cs (((words cs).map String.ofList).map String.toList) := by
  rw [← words_eq_iff, List.map_map]
  simp [Function.comp_def]

end Text

/-! ### Options -/

/-- The kind that option tokens and values choose: the first kind that a token names, and without
one a selection among the values if there are any. -/
inductive InputKind.ChosenBy (tokens values : List String) : InputKind → Prop where
  | named {front back : List String} {kind : InputKind}
      (split : tokens = front ++ kind.word :: back)
      (first : ∀ token ∈ front, ∀ other : InputKind, token ≠ other.word) :
      ChosenBy tokens values kind
  | select (unnamed : ∀ token ∈ tokens, ∀ kind : InputKind, token ≠ kind.word)
      (listed : values ≠ []) : ChosenBy tokens values .select
  | text (unnamed : ∀ token ∈ tokens, ∀ kind : InputKind, token ≠ kind.word)
      (none : values = []) : ChosenBy tokens values .text

/-- The constraint that option tokens and values make. -/
structure Constraint.Follows (tokens values : List String) (c : Constraint) : Prop where
  values_eq : c.values = values
  disabled : c.flags.disabled = true ↔ "disabled" ∈ tokens
  constant : c.flags.constant = true ↔ "constant" ∈ tokens
  kind : InputKind.ChosenBy tokens values c.kind

/-- Flags are the same if each is set in both or in neither. -/
theorem ConstraintFlags.eq_of_iff {a b : ConstraintFlags}
    (hdisabled : a.disabled = true ↔ b.disabled = true)
    (hconstant : a.constant = true ↔ b.constant = true) : a = b :=
  congrArg₂ ConstraintFlags.mk (Bool.eq_iff_iff.2 hdisabled) (Bool.eq_iff_iff.2 hconstant)

namespace ValueOptions

def ofTokens (tokens : List String) : ValueOptions := tokens.foldl add {}

theorem flags_add (options : ValueOptions) (w : String) :
    ((options.add w).flags.disabled = true ↔ options.flags.disabled = true ∨ w = "disabled") ∧
      ((options.add w).flags.constant = true ↔ options.flags.constant = true ∨ w = "constant") := by
  unfold add
  split
  · next kind hkind =>
    rw [(InputKind.ofWord?_eq_some_iff w kind).1 hkind]
    cases kind <;> simp [InputKind.word]
  · split
    · next hw => simp [hw]
    · next hdisabled =>
      split
      · next hw => simp [hw]
      · next hconstant => simp [hdisabled, hconstant]

/-- A flag is set by its word, wherever that stands among the tokens. -/
theorem flags_foldl_add (options : ValueOptions) (tokens : List String) :
    ((tokens.foldl add options).flags.disabled = true ↔
        options.flags.disabled = true ∨ "disabled" ∈ tokens) ∧
      ((tokens.foldl add options).flags.constant = true ↔
        options.flags.constant = true ∨ "constant" ∈ tokens) := by
  induction tokens generalizing options with
  | nil => simp
  | cons w tokens ih =>
      obtain ⟨hdisabled, hconstant⟩ := flags_add options w
      obtain ⟨ihdisabled, ihconstant⟩ := ih (options.add w)
      rw [List.foldl_cons, ihdisabled, ihconstant, hdisabled, hconstant, List.mem_cons,
        List.mem_cons, or_assoc, or_assoc, eq_comm (a := w), eq_comm (a := w)]
      exact ⟨Iff.rfl, Iff.rfl⟩

/-- The first word that names a kind decides. -/
theorem kind_foldl_add (options : ValueOptions) (tokens : List String) :
    (tokens.foldl add options).kind = options.kind.or (tokens.findSome? InputKind.ofWord?) := by
  induction tokens generalizing options with
  | nil => simp
  | cons w tokens ih =>
      rw [List.foldl_cons, ih, List.findSome?_cons]
      unfold add
      cases InputKind.ofWord? w with
      | some kind => cases options.kind <;> rfl
      | none =>
          dsimp only
          split
          · rfl
          · split <;> rfl

/-- A flag is set exactly if its word is among the tokens. -/
theorem flags_ofTokens (tokens : List String) :
    ((ofTokens tokens).flags.disabled = true ↔ "disabled" ∈ tokens) ∧
      ((ofTokens tokens).flags.constant = true ↔ "constant" ∈ tokens) := by
  have hflags := flags_foldl_add {} tokens
  simpa [ofTokens] using hflags

/-- The kind is that of the first token that names one. -/
theorem kind_ofTokens (tokens : List String) :
    (ofTokens tokens).kind = tokens.findSome? InputKind.ofWord? := by
  rw [ofTokens, kind_foldl_add]
  rfl

end ValueOptions

namespace InputKind

/-- A text names no kind exactly if it is not the word of any. -/
theorem ofWord?_eq_none_iff (w : String) :
    ofWord? w = none ↔ ∀ kind : InputKind, w ≠ kind.word := by
  rw [Option.eq_none_iff_forall_ne_some]
  simp only [ne_eq, ofWord?_eq_some_iff]

/-- The kind that a group falls back to is the one that its tokens and values choose. -/
theorem chosenBy_iff (tokens values : List String) (kind : InputKind) :
    (tokens.findSome? ofWord?).getD (if values.isEmpty then .text else .select) = kind ↔
      ChosenBy tokens values kind := by
  constructor
  · rintro rfl
    cases hfind : tokens.findSome? ofWord? with
    | some kind =>
        obtain ⟨front, w, back, hsplit, hw, hfront⟩ := List.findSome?_eq_some_iff.1 hfind
        rw [(ofWord?_eq_some_iff w kind).1 hw] at hsplit
        exact .named hsplit fun token htoken => (ofWord?_eq_none_iff token).1 (hfront token htoken)
    | none =>
        have hunnamed : ∀ token ∈ tokens, ∀ kind : InputKind, token ≠ kind.word :=
          fun token htoken =>
            (ofWord?_eq_none_iff token).1 (List.findSome?_eq_none_iff.1 hfind token htoken)
        cases values with
        | nil => exact .text hunnamed rfl
        | cons value values => exact .select hunnamed (List.cons_ne_nil value values)
  · intro h
    have hnone : (∀ token ∈ tokens, ∀ kind : InputKind, token ≠ kind.word) →
        tokens.findSome? ofWord? = none := fun hunnamed =>
      List.findSome?_eq_none_iff.2 fun token htoken =>
        (ofWord?_eq_none_iff token).2 (hunnamed token htoken)
    cases h with
    | named split first =>
        have hfind : tokens.findSome? ofWord? = some kind :=
          List.findSome?_eq_some_iff.2 ⟨_, _, _, split, ofWord?_word kind, fun token htoken =>
            (ofWord?_eq_none_iff token).2 (first token htoken)⟩
        rw [hfind, Option.getD_some]
    | select unnamed listed =>
        rw [hnone unnamed, Option.getD_none, if_neg (by simpa using listed)]
    | text unnamed none =>
        rw [hnone unnamed, Option.getD_none, none]
        rfl

end InputKind

namespace Constraints

/-- The constraint of a group is the one that follows its tokens and its values. -/
theorem constraintOf_eq_iff {group : TagGroup} {values : List String}
    (hvalues : BodyLists group.bodyTexts values) (tokens : List String) (c : Constraint) :
    constraintOf group (.ofTokens tokens) = c ↔ c.Follows tokens values := by
  have hlisted : valuesOf group = values := (valuesOf_eq_iff group values).2 hvalues
  have hkind := InputKind.chosenBy_iff tokens values
  rw [← ValueOptions.kind_ofTokens] at hkind
  obtain ⟨hdisabled, hconstant⟩ := ValueOptions.flags_ofTokens tokens
  rw [constraintOf, hlisted]
  constructor
  · rintro rfl
    exact ⟨rfl, hdisabled, hconstant, (hkind _).1 rfl⟩
  · intro h
    have hflags : (ValueOptions.ofTokens tokens).flags = c.flags :=
      ConstraintFlags.eq_of_iff (hdisabled.trans h.disabled.symm) (hconstant.trans h.constant.symm)
    rw [(hkind _).2 h.kind, hflags, ← h.values_eq]

end Constraints

/-! ### Groups -/

/-- The tag of a group is accepted, with these keys and option tokens. -/
inductive TagGroup.Names (group : TagGroup) : (keys tokens : List String) → Prop where
  | parts {payload : String} {text list options : List Char} {keys tokens : List String}
      (tagged : group.tag.payload = some payload) (trims : Trims payload.toList text)
      (form : ValueSpec.PayloadForm text list options) (lists : ValueSpec.ListsKeys list keys)
      (named : keys ≠ []) (separated : BlankSeparated options (tokens.map String.toList)) :
      Names group keys tokens

/-- A group with an accepted tag names the key, and its option tokens and body make the
constraint. -/
inductive TagGroup.Gives (group : TagGroup) (key : String) (c : Constraint) : Prop where
  | names {keys tokens values : List String} (named : group.Names keys tokens) (mem : key ∈ keys)
      (lists : Constraints.BodyLists group.bodyTexts values) (follows : c.Follows tokens values)

namespace Constraints

/-- Some group gives the key the constraint, and no later group names the key. -/
def LastGives (groups : List TagGroup) (key : String) (c : Constraint) : Prop :=
  ∃ front group back, groups = front ++ group :: back ∧ group.Gives key c ∧
    ∀ later ∈ back, ∀ keys tokens, later.Names keys tokens → key ∉ keys

/-- The keys that the accepted groups name, group by group. -/
inductive NamedInOrder : List TagGroup → (names : List String) → Prop where
  | nil : NamedInOrder [] []
  | accepted {group : TagGroup} {groups : List TagGroup} {keys tokens names : List String}
      (named : group.Names keys tokens) (behind : NamedInOrder groups names) :
      NamedInOrder (group :: groups) (keys ++ names)
  | refused {group : TagGroup} {groups : List TagGroup} {names : List String}
      (unnamed : ∀ keys tokens, ¬ group.Names keys tokens) (behind : NamedInOrder groups names) :
      NamedInOrder (group :: groups) names

/-! ### What one group says -/

theorem ofText_eq_ofTokens {options : List Char} {tokens : List String}
    (h : BlankSeparated options (tokens.map String.toList)) :
    ValueOptions.ofText (String.ofList options) = .ofTokens tokens := by
  rw [ValueOptions.ofText, String.toList_ofList, (words_eq_iff _ _).2 h, List.map_map]
  simp [ValueOptions.ofTokens, Function.comp_def]

/-- A payload is accepted exactly if it names keys and options. -/
theorem ofPayload_eq_ok_iff (group : TagGroup) (spec : ValueSpec) :
    ValueSpec.ofPayload group.tag.payload = .ok spec ↔
      ∃ tokens, group.Names spec.keys tokens ∧ spec.options = .ofTokens tokens := by
  constructor
  · intro h
    have hreads := ValueSpec.payloadReads_ofPayload group.tag.payload
    rw [h] at hreads
    generalize hpayload : group.tag.payload = payload at hreads
    cases hreads with
    | @accepted payload text list options keys trims form lists named =>
        have hseparated := blankSeparated_words options
        exact ⟨_, .parts hpayload trims form lists named hseparated, ofText_eq_ofTokens hseparated⟩
  · rcases spec with ⟨keys, options⟩
    rintro ⟨tokens, ⟨tagged, trims, form, lists, named, separated⟩, hoptions⟩
    obtain rfl : options = .ofTokens tokens := hoptions
    rw [tagged, ← ofText_eq_ofTokens separated]
    exact ValueSpec.ofPayload_of_payloadReads (.accepted trims form lists named)

/-- The constraint that a group gives to the key, if it names the key. -/
def gives? (key : String) (group : TagGroup) : Option Constraint :=
  match ValueSpec.ofPayload group.tag.payload with
  | .error _ => none
  | .ok spec => if key ∈ spec.keys then some (constraintOf group spec.options) else none

/-- What a group gives to a key, told as a relation. -/
theorem gives?_eq_some_iff (key : String) (group : TagGroup) (c : Constraint) :
    gives? key group = some c ↔ group.Gives key c := by
  constructor
  · intro h
    unfold gives? at h
    split at h
    · exact absurd h (by simp)
    · next spec hspec =>
      split at h
      · next hmem =>
        obtain ⟨tokens, hnames, hoptions⟩ := (ofPayload_eq_ok_iff group spec).1 hspec
        have hlists := (valuesOf_eq_iff group _).1 rfl
        rw [hoptions] at h
        have hfollows := (constraintOf_eq_iff hlists tokens c).1 (Option.some.inj h)
        exact .names hnames hmem hlists hfollows
      · exact absurd h (by simp)
  · intro h
    cases h with
    | @names keys tokens values named mem lists follows =>
        have hspec := (ofPayload_eq_ok_iff group ⟨keys, .ofTokens tokens⟩).2 ⟨tokens, named, rfl⟩
        simp only [gives?, hspec, if_pos mem, (constraintOf_eq_iff lists tokens c).2 follows]

/-- A group gives nothing to a key that it does not name. -/
theorem gives?_eq_none_iff (key : String) (group : TagGroup) :
    gives? key group = none ↔ ∀ keys tokens, group.Names keys tokens → key ∉ keys := by
  constructor
  · intro h keys tokens hnames hmem
    have hspec := (ofPayload_eq_ok_iff group ⟨keys, .ofTokens tokens⟩).2 ⟨tokens, hnames, rfl⟩
    simp [gives?, hspec, hmem] at h
  · intro h
    unfold gives?
    split
    · rfl
    · next spec hspec =>
      obtain ⟨tokens, hnames, _⟩ := (ofPayload_eq_ok_iff group spec).1 hspec
      rw [if_neg (h _ _ hnames)]

/-! ### Taking in the groups -/

theorem find?_map_const (key : String) (c : Constraint) (keys : List String) :
    Pairs.find? key (keys.map (·, c)) = if key ∈ keys then some c else none := by
  induction keys with
  | nil => rfl
  | cons k keys ih =>
      by_cases hk : k = key
      · simp [Pairs.find?, hk]
      · simp [Pairs.find?, hk, Ne.symm hk, ih]

/-- What a group says of a key replaces what was said before. -/
theorem get?_addGroup (constraints : Constraints) (group : TagGroup) (key : String) :
    (constraints.addGroup group).get? key = (gives? key group).or (constraints.get? key) := by
  rw [addGroup, gives?]
  cases ValueSpec.ofPayload group.tag.payload with
  | error e => rfl
  | ok spec =>
      rw [OrderedMap.get?_insertAll, ← List.map_reverse, find?_map_const]
      simp only [List.mem_reverse]

theorem ofGroups_concat (groups : List TagGroup) (group : TagGroup) :
    ofGroups (groups ++ [group]) = (ofGroups groups).addGroup group := by
  rw [ofGroups, List.foldl_append]
  rfl

/-- A key is looked up from the last group to the first. -/
theorem get?_ofGroups (groups : List TagGroup) (key : String) :
    (ofGroups groups).get? key = groups.reverse.findSome? (gives? key) := by
  induction groups using List.reverseRecOn with
  | nil => rfl
  | append_singleton groups group ih =>
      rw [ofGroups_concat, get?_addGroup, ih, List.reverse_append, List.reverse_singleton,
        List.singleton_append, List.findSome?_cons]
      cases gives? key group <;> rfl

/-- The last group that names a key gives it its constraint. -/
theorem get?_ofGroups_eq_some_iff (groups : List TagGroup) (key : String) (c : Constraint) :
    (ofGroups groups).get? key = some c ↔ LastGives groups key c := by
  rw [get?_ofGroups, List.findSome?_eq_some_iff]
  simp only [gives?_eq_some_iff, gives?_eq_none_iff]
  constructor
  · rintro ⟨late, group, early, hsplit, hgives, hlate⟩
    refine ⟨early.reverse, group, late.reverse, ?_, hgives, fun later hmem => ?_⟩
    · rw [← List.reverse_reverse groups, hsplit]
      simp
    · exact hlate later (List.mem_reverse.1 hmem)
  · rintro ⟨front, group, back, rfl, hgives, hback⟩
    refine ⟨back.reverse, group, front.reverse, by simp, hgives, fun later hmem => ?_⟩
    exact hback later (List.mem_reverse.1 hmem)

/-- The constrained keys are those that some accepted group names. -/
theorem mem_keys_ofGroups_iff (groups : List TagGroup) (key : String) :
    key ∈ (ofGroups groups).keys ↔
      ∃ group ∈ groups, ∃ keys tokens, group.Names keys tokens ∧ key ∈ keys := by
  rw [← not_iff_not, ← OrderedMap.get?_eq_none_iff, get?_ofGroups, List.findSome?_eq_none_iff]
  simp only [List.mem_reverse, gives?_eq_none_iff, not_exists, not_and]

theorem NamedInOrder.append {front back : List TagGroup} {names behind : List String}
    (hfront : NamedInOrder front names) (hback : NamedInOrder back behind) :
    NamedInOrder (front ++ back) (names ++ behind) := by
  induction hfront with
  | nil => exact hback
  | accepted named _ ih =>
      rw [List.cons_append, List.append_assoc]
      exact .accepted named ih
  | refused unnamed _ ih => exact .refused unnamed ih

theorem exists_namedInOrder_singleton (group : TagGroup) :
    ∃ behind, NamedInOrder [group] behind ∧
      ∀ (constraints : Constraints) (names : List String),
        FirstOccurrences names constraints.keys →
          FirstOccurrences (names ++ behind) (constraints.addGroup group).keys := by
  cases hspec : ValueSpec.ofPayload group.tag.payload with
  | error e =>
      refine ⟨[], .refused (fun keys tokens hnames => ?_) .nil, fun constraints names h => ?_⟩
      · have hspec' := (ofPayload_eq_ok_iff group ⟨keys, .ofTokens tokens⟩).2 ⟨tokens, hnames, rfl⟩
        exact absurd (hspec.symm.trans hspec') (by simp)
      · simpa only [addGroup, hspec, List.append_nil] using h
  | ok spec =>
      obtain ⟨tokens, hnames, _⟩ := (ofPayload_eq_ok_iff group spec).1 hspec
      refine ⟨spec.keys ++ [], .accepted hnames .nil, fun constraints names h => ?_⟩
      have hinserted := OrderedMap.firstOccurrences_insertAll h
        (spec.keys.map (·, constraintOf group spec.options))
      simpa only [addGroup, hspec, List.append_nil, List.map_map, Function.comp_def, List.map_id']
        using hinserted

/-- The keys stand in the order in which they are first named. -/
theorem exists_namedInOrder (groups : List TagGroup) :
    ∃ names, NamedInOrder groups names ∧ FirstOccurrences names (ofGroups groups).keys := by
  induction groups using List.reverseRecOn with
  | nil => exact ⟨[], .nil, .nil⟩
  | append_singleton groups group ih =>
      obtain ⟨names, hnames, hfirst⟩ := ih
      obtain ⟨behind, hbehind, hadded⟩ := exists_namedInOrder_singleton group
      rw [ofGroups_concat]
      exact ⟨names ++ behind, hnames.append hbehind, hadded _ _ hfirst⟩

/-- A key has a constraint exactly if an accepted group names it, and then the one that the last
such group gives it; the keys stand in the order in which the accepted groups first name them. The
lines of a body may be joined with commas between them before their values are taken, so it does not
matter how values are spread over comment lines, and values that need no trimming are listed as they
are. -/
theorem last_group_constrains :
    (∀ groups : List TagGroup,
        (∀ key, key ∈ (ofGroups groups).keys ↔
          ∃ group ∈ groups, ∃ keys tokens, group.Names keys tokens ∧ key ∈ keys) ∧
        (∀ key c, (ofGroups groups).get? key = some c ↔ LastGives groups key c) ∧
        ∃ names, NamedInOrder groups names ∧ FirstOccurrences names (ofGroups groups).keys) ∧
      (∀ lines values : List String, BodyLists lines values ↔
        ∃ entries, CommaSeparated (",".intercalate (lines.map uncomment)).toList entries ∧
          ListedValues entries values) ∧
      (∀ (rows : List (List String)) (values : List String),
        BodyLists (rows.map rowLine) values ↔ BodyLists [rowLine rows.flatten] values) ∧
      ∀ rows : List (List String), (∀ value ∈ rows.flatten, IsValue value) →
        BodyLists (rows.map rowLine) rows.flatten :=
  ⟨fun groups => ⟨mem_keys_ofGroups_iff groups, get?_ofGroups_eq_some_iff groups,
    exists_namedInOrder groups⟩, bodyLists_iff_joined, bodyLists_rows_iff,
    fun _ => bodyLists_rows_of_isValue⟩

/-- A refused group and a group for another key stand behind the last group that names `A`. Its
values repeat, hold a blank and begin with slashes. -/
theorem refused_group_passed_over :
    let rows := [["a", "b c"], ["a", "//d"]]
    let groups : List TagGroup :=
      [⟨0, ⟨.value, some "(A,B)(boolean)"⟩, []⟩,
        ⟨1, ⟨.value, some "A (constant)"⟩, [⟨2, "// a,b c"⟩, ⟨3, "// a,//d"⟩]⟩,
        ⟨4, ⟨.value, some "(A"⟩, []⟩, ⟨5, ⟨.value, some "B"⟩, []⟩]
    (∀ value ∈ rows.flatten, IsValue value) ∧ BodyLists (rows.map rowLine) rows.flatten ∧
      LastGives groups "A" ⟨.select, ["a", "b c", "a", "//d"], ⟨false, true⟩⟩ := by
  intro rows groups
  have hparts : ∀ value ∈ rows.flatten,
      value ≠ "" ∧ ',' ∉ value.toList ∧ trim value.toList = value.toList := by
    decide +kernel
  have hvalues : ∀ value ∈ rows.flatten, IsValue value := fun value hvalue => by
    obtain ⟨hfilled, hwhole, htrim⟩ := hparts value hvalue
    exact ⟨hfilled, hwhole, (trim_eq_iff _ _).1 htrim⟩
  obtain ⟨hgroups, _, _, hrows⟩ := last_group_constrains
  refine ⟨hvalues, hrows rows hvalues, ((hgroups groups).2.1 _ _).1 ?_⟩
  decide +kernel

end Constraints

end AnnotatedEnv
