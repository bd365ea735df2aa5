/-
Module: AnnotatedEnv.Proofs.ValuePayload
Purpose: The payloads of value tags that are accepted, and what each payload reads as.
Main exports: ValueSpec.PayloadForm, ValueSpec.ListsKeys, ValueSpec.PayloadReads,
  ValueSpec.read?_eq_some_iff, ValueSpec.keysOf_eq_iff, ValueSpec.payload_forms_exact
A payload is made of two parts, the keys and the options. Each of them ends where the other one
can begin, so it does not matter which of the forms is looked for first.
-/
import AnnotatedEnv.Constraint
import AnnotatedEnv.Proofs.Cuts
import AnnotatedEnv.Proofs.FirstOccurrences

namespace AnnotatedEnv

open Text Assignment

namespace ValueSpec

/-! ### The forms of a payload -/

def Flat (cs : List Char) : Prop := ∀ c ∈ cs, c ≠ '(' ∧ c ≠ ')'

/-- The part of a payload that names keys, and the text of its key list. -/
inductive KeysPart : (part list : List Char) → Prop where
  | list {list : List Char} (flat : Flat list) : KeysPart ('(' :: (list ++ [')'])) list
  | key {key : List Char} (named : key ≠ []) (chars : ∀ c ∈ key, isKeyChar c = true) :
      KeysPart key key

/-- The part of a payload behind its keys, and the text of its options. -/
inductive OptionsPart : (part options : List Char) → Prop where
  | absent : OptionsPart [] []
  | given {gap options : List Char} (blank : ∀ c ∈ gap, isBlank c = true) (flat : Flat options) :
      OptionsPart (gap ++ '(' :: (options ++ [')'])) options

/-- A payload `(list)(options)`, `key(options)`, `(list)` or `key`; a key is a key list, too. -/
inductive PayloadForm : (text list options : List Char) → Prop where
  | parts {keys behind list options : List Char} (lists : KeysPart keys list)
      (opts : OptionsPart behind options) : PayloadForm (keys ++ behind) list options

/-! ### The keys of a list -/

/-- The keys that entries are when the blanks around them are dropped, entry by entry. -/
inductive NamedKeys : (entries : List (List Char)) → (names : List String) → Prop where
  | nil : NamedKeys [] []
  | usable {entry : List Char} {entries : List (List Char)} {key : String} {names : List String}
      (trims : Trims entry key.toList) (isKey : IsKey key) (behind : NamedKeys entries names) :
      NamedKeys (entry :: entries) (key :: names)
  | unusable {entry : List Char} {entries : List (List Char)} {names : List String}
      (noKey : ∀ key : String, Trims entry key.toList → ¬ IsKey key)
      (behind : NamedKeys entries names) : NamedKeys (entry :: entries) names

/-- The keys that a comma-separated list names, each one once and in the order in which they are
first named. -/
def ListsKeys (list : List Char) (keys : List String) : Prop :=
  ∃ entries names, CommaSeparated list entries ∧ NamedKeys entries names ∧
    FirstOccurrences names keys

inductive PayloadReads : Option String → Except TagError ValueSpec → Prop where
  | absent : PayloadReads none (.error (.missingPayload .value))
  | accepted {payload : String} {text list options : List Char} {keys : List String}
      (trims : Trims payload.toList text) (form : PayloadForm text list options)
      (lists : ListsKeys list keys) (named : keys ≠ []) :
      PayloadReads (some payload) (.ok ⟨keys, .ofText (String.ofList options)⟩)
  | nameless {payload : String} {text list options : List Char}
      (trims : Trims payload.toList text) (form : PayloadForm text list options)
      (lists : ListsKeys list []) : PayloadReads (some payload) (.error (.noKeys payload))
  | formless {payload : String} {text : List Char} (trims : Trims payload.toList text)
      (other : ∀ list options, ¬ PayloadForm text list options) :
      PayloadReads (some payload) (.error (.invalidValue payload))

/-! ### Reading the parts -/

theorem isKeyChar_parenthesis : isKeyChar '(' = false := by decide +kernel

/-- A group in parentheses runs up to the first closing one. -/
theorem readGroup?_eq_some_iff (cs inside rest : List Char) :
    readGroup? cs = some (inside, rest) ↔ Flat inside ∧ cs = '(' :: (inside ++ ')' :: rest) := by
  constructor
  · intro h
    unfold readGroup? at h
    split at h
    · next body =>
      dsimp only at h
      split at h
      · next after hdrop =>
        obtain ⟨rfl, rfl⟩ := Prod.mk.inj (Option.some.inj h)
        refine ⟨fun c hc => ?_, ?_⟩
        · simpa using forall_mem_takeWhile _ body c hc
        · rw [← hdrop, List.takeWhile_append_dropWhile]
      · exact absurd h (by simp)
    · exact absurd h (by simp)
  · rintro ⟨hflat, rfl⟩
    have hinside : ∀ c ∈ inside, (decide (c ≠ '(') && decide (c ≠ ')')) = true := fun c hc => by
      simpa using hflat c hc
    have hends : ∀ c ∈ (')' :: rest).head?, (decide (c ≠ '(') && decide (c ≠ ')')) = false :=
      head?_cons_eq_false (by decide) rest
    simp only [readGroup?, takeWhile_run hinside hends, dropWhile_run hinside hends]

/-- Options are read if nothing stands behind them. -/
theorem readOptions?_eq_some_iff (cs options : List Char) :
    readOptions? cs = some options ↔ OptionsPart cs options := by
  constructor
  · intro h
    unfold readOptions? at h
    split at h
    · obtain rfl : [] = options := Option.some.inj h
      exact .absent
    · split at h
      · next inside hread =>
        obtain rfl : inside = options := Option.some.inj h
        obtain ⟨hflat, htrim⟩ := (readGroup?_eq_some_iff _ _ _).1 hread
        obtain ⟨⟨gap, hgap, rfl⟩, _⟩ := (trimStart_eq_iff cs _).1 htrim
        exact .given hgap hflat
      · exact absurd h (by simp)
  · intro h
    cases h with
    | absent => rfl
    | @given gap _ blank flat =>
        have htrim : trimStart (gap ++ '(' :: (options ++ [')'])) = '(' :: (options ++ [')']) :=
          dropWhile_run blank (head?_cons_eq_false (by decide) _)
        have hread : readGroup? ('(' :: (options ++ [')'])) = some (options, []) :=
          (readGroup?_eq_some_iff _ _ _).2 ⟨flat, rfl⟩
        rw [readOptions?]
        · simp only [htrim, hread]
        · simp

/-- The options do not begin with a key character. -/
theorem OptionsPart.head? {part options : List Char} (h : OptionsPart part options) :
    ∀ c ∈ part.head?, isKeyChar c = false := by
  cases h with
  | absent => exact fun c hc => absurd hc (by simp)
  | given blank flat =>
      exact head?_blanks blank fun _ => head?_cons_eq_false isKeyChar_parenthesis _

/-- A payload is read exactly if it has a form. -/
theorem read?_eq_some_iff (cs list options : List Char) :
    read? cs = some (list, options) ↔ PayloadForm cs list options := by
  constructor
  · intro h
    unfold read? at h
    split at h
    · next keys rest hread =>
      obtain ⟨hflat, rfl⟩ := (readGroup?_eq_some_iff _ _ _).1 hread
      obtain ⟨opts, hopts, heq⟩ := Option.map_eq_some_iff.1 h
      obtain ⟨rfl, rfl⟩ := Prod.mk.inj heq
      have hform := PayloadForm.parts (.list hflat) ((readOptions?_eq_some_iff _ _).1 hopts)
      simpa using hform
    · split at h
      · exact absurd h (by simp)
      · next hkey =>
        obtain ⟨opts, hopts, heq⟩ := Option.map_eq_some_iff.1 h
        obtain ⟨rfl, rfl⟩ := Prod.mk.inj heq
        have hform := PayloadForm.parts (.key hkey (forall_mem_takeWhile isKeyChar cs))
          ((readOptions?_eq_some_iff _ _).1 hopts)
        rwa [List.takeWhile_append_dropWhile] at hform
  · rintro ⟨lists, opts⟩
    have hopts := (readOptions?_eq_some_iff _ _).2 opts
    cases lists with
    | list flat =>
        rename_i behind
        have hread : readGroup? ('(' :: (list ++ [')']) ++ behind) = some (list, behind) :=
          (readGroup?_eq_some_iff _ _ _).2 ⟨flat, by simp⟩
        simp only [read?, hread, hopts, Option.map_some]
    | key named chars =>
        rename_i behind
        have hnone : readGroup? (list ++ behind) = none := by
          obtain ⟨k, ks, rfl⟩ := List.exists_cons_of_ne_nil named
          have hk : k ≠ '(' := by
            rintro rfl
            exact absurd (chars '(' (by simp)) (by simp [isKeyChar_parenthesis])
          simp [readGroup?, hk]
        have htake := takeWhile_run chars opts.head?
        have hdrop := dropWhile_run chars opts.head?
        obtain ⟨k, ks, rfl⟩ := List.exists_cons_of_ne_nil named
        simp only [read?, hnone, htake, hdrop, hopts, Option.map_some]

/-! ### Reading the key list -/

theorem isKey_iff (key : String) :
    IsKey key ↔ (!key.toList.isEmpty && key.toList.all isKeyChar) = true := by
  constructor
  · rintro ⟨hne, hchars⟩
    exact Bool.and_eq_true_iff.2 ⟨by simpa using hne, List.all_eq_true.2 hchars⟩
  · intro h
    obtain ⟨hne, hchars⟩ := Bool.and_eq_true_iff.1 h
    exact ⟨by simpa using hne, List.all_eq_true.1 hchars⟩

/-- The names are what trimming leaves of the entries, as far as it is a key. -/
theorem namedKeys_iff (entries : List (List Char)) (names : List String) :
    ((entries.map trim).filter fun cs => !cs.isEmpty && cs.all isKeyChar).map String.ofList =
        names ↔ NamedKeys entries names := by
  constructor
  · rintro rfl
    induction entries with
    | nil => exact .nil
    | cons entry entries ih =>
        have htrims : Trims entry (String.ofList (trim entry)).toList := by
          rw [String.toList_ofList, ← trim_eq_iff]
        have husable := isKey_iff (String.ofList (trim entry))
        rw [String.toList_ofList] at husable
        rw [List.map_cons, List.filter_cons]
        split
        · next hkey => exact .usable htrims (husable.2 hkey) ih
        · next hnone =>
          refine .unusable (fun key htrim hkey => hnone ?_) ih
          rw [(trim_eq_iff _ _).2 htrim]
          exact (isKey_iff key).1 hkey
  · intro h
    induction h with
    | nil => rfl
    | usable trims isKey _ ih =>
        rw [List.map_cons, (trim_eq_iff _ _).2 trims, List.filter_cons,
          if_pos ((isKey_iff _).1 isKey), List.map_cons, ih, String.ofList_toList]
    | @unusable entry _ _ noKey _ ih =>
        have hnone : ¬ (!(trim entry).isEmpty && (trim entry).all isKeyChar) = true := by
          intro hkey
          refine noKey (String.ofList (trim entry)) ?_ ((isKey_iff _).2 ?_)
          · rw [String.toList_ofList, ← trim_eq_iff]
          · rwa [String.toList_ofList]
        rw [List.map_cons, List.filter_cons, if_neg hnone, ih]

/-- The keys of a list are those of its entries that are keys. -/
theorem keysOf_eq_iff (list : List Char) (keys : List String) :
    keysOf list = keys ↔ ListsKeys list keys := by
  constructor
  · rintro rfl
    exact ⟨_, _, commaSeparated_pieces list, (namedKeys_iff _ _).1 rfl,
      firstOccurrences_eraseDups _⟩
  · rintro ⟨entries, names, hentries, hnames, hkeys⟩
    rw [keysOf, (pieces_comma_eq_iff _ _).2 hentries, (namedKeys_iff _ _).2 hnames]
    exact (firstOccurrences_eraseDups names).unique hkeys

/-! ### Reading a payload -/

/-- Each payload is read in one of the ways. -/
theorem payloadReads_ofPayload (payload : Option String) :
    PayloadReads payload (ofPayload payload) := by
  cases payload with
  | none => exact .absent
  | some payload =>
      have htrims := (trim_eq_iff payload.toList _).1 rfl
      rw [ofPayload]
      split
      · next hread =>
        refine .formless htrims fun list options hform => ?_
        exact absurd (hread.symm.trans ((read?_eq_some_iff _ _ _).2 hform)) (by simp)
      · next list options hread =>
        have hform := (read?_eq_some_iff _ _ _).1 hread
        split
        · next hkeys => exact .nameless htrims hform ((keysOf_eq_iff _ _).1 hkeys)
        · next hkeys => exact .accepted htrims hform ((keysOf_eq_iff _ _).1 rfl) hkeys

/-- Each way of reading a payload is the way it is read. -/
theorem ofPayload_of_payloadReads {payload : Option String} {result : Except TagError ValueSpec}
    (h : PayloadReads payload result) : ofPayload payload = result := by
  cases h with
  | absent => rfl
  | @accepted payload _ _ _ keys trims form lists named =>
      obtain ⟨key, rest, rfl⟩ := List.exists_cons_of_ne_nil named
      simp only [ofPayload, (trim_eq_iff _ _).2 trims, (read?_eq_some_iff _ _ _).2 form,
        (keysOf_eq_iff _ _).2 lists]
  | nameless trims form lists =>
      simp only [ofPayload, (trim_eq_iff _ _).2 trims, (read?_eq_some_iff _ _ _).2 form,
        (keysOf_eq_iff _ _).2 lists]
  | @formless payload text trims other =>
      have hread : read? text = none := by
        cases h : read? text with
        | none => rfl
        | some found => exact absurd ((read?_eq_some_iff _ _ _).1 h) (other found.1 found.2)
      simp only [ofPayload, (trim_eq_iff _ _).2 trims, hread]

/-! ### Writing a payload -/

theorem isKeyChar_comma : isKeyChar ',' = false := by decide +kernel

theorem isKeyChar_closing : isKeyChar ')' = false := by decide +kernel

theorem commaSeparated_intercalate {keys : List String} (hne : keys ≠ [])
    (hkeys : ∀ key ∈ keys, IsKey key) :
    CommaSeparated (",".intercalate keys).toList (keys.map String.toList) := by
  have hwhole : ∀ key ∈ keys, ',' ∉ key.toList := fun key hkey hmem =>
    absurd ((hkeys key hkey).chars _ hmem) (by simp [isKeyChar_comma])
  induction keys with
  | nil => exact absurd rfl hne
  | cons key keys ih =>
      obtain ⟨hkey, hrest⟩ := List.forall_mem_cons.1 hwhole
      cases keys with
      | nil => exact .last hkey
      | cons next keys =>
          have hbehind := ih (by simp) (fun k hk => hkeys k (List.mem_cons_of_mem key hk)) hrest
          rw [toList_intercalate_comma]
          exact .more hkey hbehind

/-- A key has no blanks that trimming could drop. -/
theorem trims_key {key : String} (hkey : IsKey key) : Trims key.toList key.toList :=
  .of_forall fun c hc => isBlank_eq_false_of_isKeyChar (hkey.chars c hc)

theorem namedKeys_map {keys : List String} (hkeys : ∀ key ∈ keys, IsKey key) :
    NamedKeys (keys.map String.toList) keys := by
  induction keys with
  | nil => exact .nil
  | cons key keys ih =>
      obtain ⟨hkey, hrest⟩ := List.forall_mem_cons.1 hkeys
      exact .usable (trims_key hkey) hkey (ih hrest)

theorem flat_of_commaSeparated {list : List Char} {entries : List (List Char)}
    (h : CommaSeparated list entries) (hflat : ∀ entry ∈ entries, Flat entry) : Flat list := by
  induction h with
  | last _ => exact hflat _ (by simp)
  | more _ _ ih =>
      obtain ⟨hentry, hrest⟩ := List.forall_mem_cons.1 hflat
      exact List.forall_mem_append.2 ⟨hentry, List.forall_mem_cons.2 ⟨by decide, ih hrest⟩⟩

theorem flat_key {key : String} (hkey : IsKey key) : Flat key.toList := by
  refine fun c hc => ⟨?_, ?_⟩
  · rintro rfl
    exact absurd (hkey.chars _ hc) (by simp [isKeyChar_parenthesis])
  · rintro rfl
    exact absurd (hkey.chars _ hc) (by simp [isKeyChar_closing])

/-- Distinct keys and an option text, each in parentheses, are read as they are. -/
theorem ofPayload_written {keys : List String} {options : String} (hne : keys ≠ [])
    (hnodup : keys.Nodup) (hkeys : ∀ key ∈ keys, IsKey key) (hoptions : Flat options.toList) :
    ofPayload (some ("(" ++ ",".intercalate keys ++ ")(" ++ options ++ ")")) =
      .ok ⟨keys, .ofText options⟩ := by
  have hentries := commaSeparated_intercalate hne hkeys
  have hlists : ListsKeys (",".intercalate keys).toList keys :=
    ⟨_, _, hentries, namedKeys_map hkeys, .of_nodup hnodup⟩
  have hflat : Flat (",".intercalate keys).toList := by
    refine flat_of_commaSeparated hentries fun entry hentry => ?_
    obtain ⟨key, hkey, rfl⟩ := List.mem_map.1 hentry
    exact flat_key (hkeys key hkey)
  have hform := PayloadForm.parts (.list hflat) (.given (List.forall_mem_nil _) hoptions)
  have htext : ("(" ++ ",".intercalate keys ++ ")(" ++ options ++ ")").toList =
      '(' :: ((",".intercalate keys).toList ++ [')']) ++
        ([] ++ '(' :: (options.toList ++ [')'])) := by
    simp
  have htrims : Trims ("(" ++ ",".intercalate keys ++ ")(" ++ options ++ ")").toList
      ("(" ++ ",".intercalate keys ++ ")(" ++ options ++ ")").toList := by
    refine .refl ?_ fun c hc => ?_
    · rw [htext]
      exact head?_cons_eq_false (by decide) _
    · obtain rfl : ')' = c := by
        simpa [htext, List.getLast?_append, List.getLast?_cons] using hc
      decide
  rw [← htext] at hform
  have hreads := ofPayload_of_payloadReads (.accepted htrims hform hlists hne)
  rwa [String.ofList_toList] at hreads

/-- A payload reads as its form says, and in no other way. In particular a list of keys and an
option text, each in parentheses, are read as they are. -/
theorem payload_forms_exact :
    (∀ (payload : Option String) (result : Except TagError ValueSpec),
        ofPayload payload = result ↔ PayloadReads payload result) ∧
      ∀ (keys : List String) (options : String), keys ≠ [] → keys.Nodup →
        (∀ key ∈ keys, IsKey key) → Flat options.toList →
        ofPayload (some ("(" ++ ",".intercalate keys ++ ")(" ++ options ++ ")")) =
          .ok ⟨keys, .ofText options⟩ := by
  refine ⟨fun payload result => ⟨fun h => ?_, ofPayload_of_payloadReads⟩,
    fun keys options hne hnodup hkeys hoptions => ?_⟩
  · rw [← h]
    exact payloadReads_ofPayload payload
  · exact ofPayload_written hne hnodup hkeys hoptions

/-- Two keys with a dot and a hyphen in them, and an option text over two lines. -/
theorem two_keys_payload :
    (["A.x", "B-1"] ≠ [] ∧ ["A.x", "B-1"].Nodup ∧ (∀ key ∈ ["A.x", "B-1"], IsKey key) ∧
        Flat " select\ndisabled".toList) ∧
      ofPayload (some "(A.x,B-1)( select\ndisabled)") =
        .ok ⟨["A.x", "B-1"], .ofText " select\ndisabled"⟩ := by
  have hkeys : ∀ key ∈ ["A.x", "B-1"], IsKey key := by
    intro key hkey
    rw [isKey_iff]
    revert key
    decide +kernel
  have hflat : Flat " select\ndisabled".toList := by simp [Flat]
  have hnodup : ["A.x", "B-1"].Nodup := by decide
  have htext : "(" ++ ",".intercalate ["A.x", "B-1"] ++ ")(" ++ " select\ndisabled" ++ ")" =
      "(A.x,B-1)( select\ndisabled)" := by
    decide +kernel
  rw [← htext]
  exact ⟨⟨by simp, hnodup, hkeys, hflat⟩, payload_forms_exact.2 _ _ (by simp) hnodup hkeys hflat⟩

/-- Parentheses do not nest, and entries that are no keys or were named before are left out. -/
example :
    ofPayload (some "((A))") = .error (.invalidValue "((A))") ∧
      ofPayload (some " (A, ,b c,A,\tD) ") = .ok ⟨["A", "D"], {}⟩ := by
  decide +kernel

end ValueSpec

end AnnotatedEnv
