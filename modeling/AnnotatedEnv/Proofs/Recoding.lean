/-
Module: AnnotatedEnv.Proofs.Recoding
Purpose: The JSON values that are read, and that they keep their form once they were written.
Main exports: Json.Gives, Json.FieldForm, Json.Names, a `Form` and an `ofJson?_eq_some_iff` for each
  type, Json.recoded, Json.Settles, Json.forms_settle
A form relates the values that are taken to what they are read as. Many values of a form are read as
the same, and one of them is written.
-/
import Mathlib.Data.List.Forall2
import AnnotatedEnv.Proofs.Forms
import AnnotatedEnv.Proofs.ModeText
import AnnotatedEnv.Proofs.Spelling

namespace AnnotatedEnv

/-! ### Forms -/

namespace Json

/-- The fields of a record that a value gives, `none` for those that are missing. -/
inductive Gives (names : List String) : Json → List (Option Json) → Prop where
  /-- Members of other names do not count. -/
  | members (ms : List (String × Json)) : Gives names (.object ms) (names.map (member? · ms))
  /-- The first fields in their order. -/
  | items (given : List Json) {missing : Nat} (length : given.length + missing = names.length) :
      Gives names (.array given) (given.map some ++ List.replicate missing none)

/-- What a field is read as that may be missing. -/
inductive FieldForm {α : Type} (fallback : α) (form : Json → α → Prop) :
    Option Json → α → Prop where
  | missing : FieldForm fallback form none fallback
  | given {v : Json} {x : α} (isForm : form v x) : FieldForm fallback form (some v) x

/-- The two ways to name a choice without content. -/
inductive Names (name : String) : Json → Prop where
  | text : Names name (.string name)
  | member : Names name (.object [(name, .null)])

def BoolForm (v : Json) (b : Bool) : Prop := v = .bool b

/-- A number that fits into sixty-four bits. -/
def WordForm (v : Json) (n : Nat) : Prop := v = .nat n ∧ n < 18446744073709551616

end Json

/-- The sixty-four digits of a digest, in either case. -/
def Digest.Form (v : Json) (d : Digest) : Prop :=
  ∃ text : String, v = .string text ∧ Hex.Spells text.toList d.bytes

/-- A line end is named. -/
def LineEnding.Form (v : Json) (e : LineEnding) : Prop := Json.Names e.label v

/-- An input kind is named by its option word. -/
def InputKind.Form (v : Json) (k : InputKind) : Prop := Json.Names k.word v

/-- The index has to fit into sixty-four bits. -/
structure LinePatch.Form (v : Json) (p : LinePatch) : Prop where
  bound : p.index < 18446744073709551616
  fields : Json.Gives ["line_index", "new_line_text"] v [some (.nat p.index), some (.string p.text)]

/-- The instructions may come in any order, and lines may repeat. -/
inductive Patch.Form : Json → Patch → Prop where
  | record {v base : Json} {items : List Json} {p : Patch}
      (fields : Json.Gives ["base_hash", "instructions"] v [some base, some (.array items)])
      (isBase : Digest.Form base p.base)
      (areInstructions : List.Forall₂ LinePatch.Form items p.instructions) : Patch.Form v p

/-- Blanks around the id do not count. -/
inductive ModeId.Form : Json → ModeId → Prop where
  | text {text : String} {id : ModeId} (isScope : IsWordRun id.scope) (isMode : IsWordRun id.mode)
      (trims : Text.Trims text.toList (id.scope.toList ++ '.' :: id.mode.toList)) :
      ModeId.Form (.string text) id

/-- Both flags have to be given. -/
def ConstraintFlags.Form (v : Json) (f : ConstraintFlags) : Prop :=
  Json.Gives ["disabled", "constant"] v [some (.bool f.disabled), some (.bool f.constant)]

/-- Nothing may stand beside the kind of a request. -/
inductive Request.Form : Json → Request → Prop where
  | setValue {members : List (String × Json)} {key value : String}
      (isKey : Json.member? "key" members = some (.string key))
      (isValue : Json.member? "value" members = some (.string value)) :
      Request.Form (.object [("set_value", .object members)]) (.setValue key value)
  | selectMode {content : Json} {id : ModeId} (isId : ModeId.Form content id) :
      Request.Form (.object [("select_mode", content)]) (.selectMode id)

/-- Either field may be missing, or both. -/
inductive LoadOptions.Form : Json → LoadOptions → Prop where
  | record {v : Json} {legacy capacity : Option Json} {o : LoadOptions}
      (fields : Json.Gives ["legacy_overwritten", "cache_capacity"] v [legacy, capacity])
      (isLegacy : Json.FieldForm false Json.BoolForm legacy o.legacyOverwritten)
      (isCapacity : Json.FieldForm 64 Json.WordForm capacity o.cacheCapacity) :
      LoadOptions.Form v o

/-- Any field may be missing, and so may any field of the load options. -/
inductive SessionOptions.Form : Json → SessionOptions → Prop where
  | record {v : Json} {load verify minimal : Option Json} {o : SessionOptions}
      (fields : Json.Gives ["load", "verify_before_override", "minimal_patches"] v
        [load, verify, minimal])
      (isLoad : Json.FieldForm {} LoadOptions.Form load o.load)
      (isVerify : Json.FieldForm true Json.BoolForm verify o.verifyBeforeOverride)
      (isMinimal : Json.FieldForm false Json.BoolForm minimal o.minimalPatches) :
      SessionOptions.Form v o

/-! ### Reading shapes -/

theorem toOption_eq_some_iff {ε α : Type} (r : Except ε α) (x : α) :
    r.toOption = some x ↔ r = .ok x := by
  cases r <;> simp [Except.toOption]

/-- A list is read item by item. -/
theorem readAll_eq_some_iff {α β : Type} {read : α → Option β} {form : α → β → Prop}
    (h : ∀ x y, read x = some y ↔ form x y) (xs : List α) (ys : List β) :
    readAll read xs = some ys ↔ List.Forall₂ form xs ys := by
  induction xs generalizing ys with
  | nil =>
      rw [List.forall₂_nil_left_iff]
      exact ⟨fun hread => (Option.some.inj hread).symm, fun hnil => congrArg some hnil.symm⟩
  | cons x xs ih =>
      rw [List.forall₂_cons_left_iff, readAll]
      constructor
      · intro hread
        split at hread
        · next y rest hfirst hrest =>
          exact ⟨y, rest, (h x y).1 hfirst, (ih rest).1 hrest, (Option.some.inj hread).symm⟩
        · exact absurd hread (by simp)
      · rintro ⟨y, rest, hfirst, hrest, rfl⟩
        rw [(h x y).2 hfirst, (ih rest).2 hrest]

namespace Json

theorem fields?_eq_some_iff (names : List String) (v : Json) (given : List (Option Json)) :
    v.fields? names = some given ↔ Gives names v given := by
  constructor
  · intro h
    unfold fields? at h
    split at h
    · next ms =>
      obtain rfl := Option.some.inj h
      exact .members ms
    · next items =>
      split at h
      · next hle =>
        obtain rfl := Option.some.inj h
        exact .items items (Nat.add_sub_of_le hle)
      · exact absurd h (by simp)
    · exact absurd h (by simp)
  · intro h
    cases h with
    | members ms => rfl
    | @items given missing length =>
        have hle : given.length ≤ names.length := Nat.le.intro length
        have hmissing : names.length - given.length = missing := by omega
        rw [fields?, if_pos hle, hmissing]

/-- A field that is missing stands for its default. -/
theorem fieldOr_eq_some_iff {α : Type} {read : Json → Option α} {form : Json → α → Prop}
    (h : ∀ v x, read v = some x ↔ form v x) (fallback : α) (field : Option Json) (x : α) :
    fieldOr fallback read field = some x ↔ FieldForm fallback form field x := by
  constructor
  · intro hread
    cases field with
    | none =>
        obtain rfl := Option.some.inj hread
        exact .missing
    | some v => exact .given ((h v x).1 hread)
  · rintro (_ | hform)
    · rfl
    · exact (h _ x).2 hform

theorem choice?_eq_some_iff (v : Json) (name : String) :
    v.choice? = some name ↔ Names name v := by
  constructor
  · intro h
    unfold choice? at h
    split at h
    · obtain rfl := Option.some.inj h
      exact .text
    · obtain rfl := Option.some.inj h
      exact .member
    · exact absurd h (by simp)
  · rintro (_ | _) <;> rfl

theorem toBool?_eq_some_iff (v : Json) (b : Bool) : v.toBool? = some b ↔ BoolForm v b := by
  constructor
  · intro h
    cases v with
    | bool held => exact congrArg bool (Option.some.inj h)
    | _ => exact absurd h (by simp [toBool?])
  · rintro rfl
    rfl

theorem toText?_eq_some_iff (v : Json) (s : String) : v.toText? = some s ↔ v = .string s := by
  constructor
  · intro h
    cases v with
    | string held => exact congrArg string (Option.some.inj h)
    | _ => exact absurd h (by simp [toText?])
  · rintro rfl
    rfl

/-- The numbers that are read are the words of sixty-four bits. -/
theorem toWord?_eq_some_iff (v : Json) (n : Nat) : v.toWord? = some n ↔ WordForm v n := by
  constructor
  · intro h
    refine ⟨?_, lt_of_toWord? h⟩
    unfold toWord? at h
    split at h
    · next k =>
      split at h
      · next hbound =>
        obtain rfl := Option.some.inj h
        rw [nat, Int.toNat_of_nonneg hbound.1]
      · exact absurd h (by simp)
    · exact absurd h (by simp)
  · rintro ⟨rfl, hlt⟩
    exact toWord?_nat hlt

end Json

/-! ### Reading each type -/

theorem Digest.ofJson?_eq_some_iff (v : Json) (d : Digest) : ofJson? v = some d ↔ Form v d := by
  constructor
  · intro h
    unfold ofJson? at h
    split at h
    · next text =>
      exact ⟨text, rfl, (ofText_eq_ok_iff text d).1 ((toOption_eq_some_iff _ _).1 h)⟩
    · exact absurd h (by simp)
  · rintro ⟨text, rfl, hspells⟩
    exact (toOption_eq_some_iff _ _).2 ((ofText_eq_ok_iff text d).2 hspells)

theorem LineEnding.ofJson?_eq_some_iff (v : Json) (e : LineEnding) :
    ofJson? v = some e ↔ Form v e := by
  have hlabel : ∀ name, [lf, crlf].find? (·.label = name) = some e ↔ name = e.label := by
    intro name
    constructor
    · intro h
      have hfound := List.find?_some h
      exact (of_decide_eq_true hfound).symm
    · rintro rfl
      cases e <;> decide
  rw [ofJson?, Option.bind_eq_some_iff, Form, ← Json.choice?_eq_some_iff]
  simp only [hlabel, exists_eq_right]

theorem InputKind.ofJson?_eq_some_iff (v : Json) (k : InputKind) :
    ofJson? v = some k ↔ Form v k := by
  rw [ofJson?, Option.bind_eq_some_iff, Form, ← Json.choice?_eq_some_iff]
  simp only [ofWord?_eq_some_iff, exists_eq_right]

theorem LinePatch.ofJson?_eq_some_iff (v : Json) (p : LinePatch) :
    ofJson? v = some p ↔ Form v p := by
  constructor
  · intro h
    refine ⟨lt_of_ofJson? h, ?_⟩
    unfold ofJson? at h
    split at h
    · next index text hfields =>
      split at h
      · next hindex htext =>
        obtain rfl := Option.some.inj h
        rw [← Json.fields?_eq_some_iff, hfields, ((Json.toWord?_eq_some_iff _ _).1 hindex).1,
          (Json.toText?_eq_some_iff _ _).1 htext]
      · exact absurd h (by simp)
    · exact absurd h (by simp)
  · rintro ⟨hlt, hfields⟩
    exact ofJson?_of_fields ((Json.fields?_eq_some_iff _ _ _).2 hfields) (Json.toWord?_nat hlt) rfl

/-- The JSON forms of a patch. -/
theorem Patch.ofJson?_eq_some_iff (v : Json) (p : Patch) : ofJson? v = some p ↔ Form v p := by
  constructor
  · intro h
    unfold ofJson? at h
    split at h
    · next base items hfields =>
      split at h
      · next hbase hinstructions =>
        obtain rfl := Option.some.inj h
        exact .record ((Json.fields?_eq_some_iff _ _ _).1 hfields)
          ((Digest.ofJson?_eq_some_iff _ _).1 hbase)
          ((readAll_eq_some_iff LinePatch.ofJson?_eq_some_iff _ _).1 hinstructions)
      · exact absurd h (by simp)
    · exact absurd h (by simp)
  · rintro ⟨fields, isBase, areInstructions⟩
    simp only [ofJson?, (Json.fields?_eq_some_iff _ _ _).2 fields,
      (Digest.ofJson?_eq_some_iff _ _).2 isBase,
      (readAll_eq_some_iff LinePatch.ofJson?_eq_some_iff _ _).2 areInstructions]

theorem ModeId.ofJson?_eq_some_iff (v : Json) (id : ModeId) : ofJson? v = some id ↔ Form v id := by
  constructor
  · intro h
    unfold ofJson? at h
    split at h
    · next text =>
      have htext := (toOption_eq_some_iff _ _).1 h
      obtain ⟨isScope, isMode, trims⟩ := (ofText_eq_ok_iff text id).1 htext
      exact .text isScope isMode trims
    · exact absurd h (by simp)
  · rintro ⟨isScope, isMode, trims⟩
    exact (toOption_eq_some_iff _ _).2 ((ofText_eq_ok_iff _ id).2 ⟨isScope, isMode, trims⟩)

theorem ConstraintFlags.ofJson?_eq_some_iff (v : Json) (f : ConstraintFlags) :
    ofJson? v = some f ↔ Form v f := by
  constructor
  · intro h
    unfold ofJson? at h
    split at h
    · next disabled constant hfields =>
      split at h
      · next hdisabled hconstant =>
        obtain rfl := Option.some.inj h
        rw [Form, ← Json.fields?_eq_some_iff, hfields, (Json.toBool?_eq_some_iff _ _).1 hdisabled,
          (Json.toBool?_eq_some_iff _ _).1 hconstant]
      · exact absurd h (by simp)
    · exact absurd h (by simp)
  · intro h
    simp only [ofJson?, (Json.fields?_eq_some_iff _ _ _).2 h, Json.toBool?]

/-- The JSON forms of a request. -/
theorem Request.ofJson?_eq_some_iff (v : Json) (r : Request) : ofJson? v = some r ↔ Form v r := by
  constructor
  · intro h
    unfold ofJson? at h
    split at h
    · next name content =>
      split at h
      · next hname =>
        subst hname
        split at h
        · next members =>
          split at h
          · next hkey hvalue =>
            obtain rfl := Option.some.inj h
            obtain ⟨k, hk, hkeyText⟩ := Option.bind_eq_some_iff.1 hkey
            obtain ⟨w, hw, hvalueText⟩ := Option.bind_eq_some_iff.1 hvalue
            obtain rfl := (Json.toText?_eq_some_iff _ _).1 hkeyText
            obtain rfl := (Json.toText?_eq_some_iff _ _).1 hvalueText
            exact .setValue hk hw
          · exact absurd h (by simp)
        · exact absurd h (by simp)
      · split at h
        · next hname =>
          subst hname
          obtain ⟨id, hid, rfl⟩ := Option.map_eq_some_iff.1 h
          exact .selectMode ((ModeId.ofJson?_eq_some_iff _ _).1 hid)
        · exact absurd h (by simp)
    · exact absurd h (by simp)
  · intro h
    cases h with
    | setValue isKey isValue => simp [ofJson?, isKey, isValue, Json.toText?]
    | selectMode isId => simp [ofJson?, (ModeId.ofJson?_eq_some_iff _ _).2 isId]

theorem LoadOptions.ofJson?_eq_some_iff (v : Json) (o : LoadOptions) :
    ofJson? v = some o ↔ Form v o := by
  constructor
  · intro h
    unfold ofJson? at h
    split at h
    · next hfields =>
      split at h
      · next hlegacy hcapacity =>
        obtain rfl := Option.some.inj h
        exact .record ((Json.fields?_eq_some_iff _ _ _).1 hfields)
          ((Json.fieldOr_eq_some_iff Json.toBool?_eq_some_iff _ _ _).1 hlegacy)
          ((Json.fieldOr_eq_some_iff Json.toWord?_eq_some_iff _ _ _).1 hcapacity)
      · exact absurd h (by simp)
    · exact absurd h (by simp)
  · rintro ⟨fields, isLegacy, isCapacity⟩
    simp only [ofJson?, (Json.fields?_eq_some_iff _ _ _).2 fields,
      (Json.fieldOr_eq_some_iff Json.toBool?_eq_some_iff _ _ _).2 isLegacy,
      (Json.fieldOr_eq_some_iff Json.toWord?_eq_some_iff _ _ _).2 isCapacity]

/-- The JSON forms of session options. -/
theorem SessionOptions.ofJson?_eq_some_iff (v : Json) (o : SessionOptions) :
    ofJson? v = some o ↔ Form v o := by
  constructor
  · intro h
    unfold ofJson? at h
    split at h
    · next hfields =>
      split at h
      · next hload hverify hminimal =>
        obtain rfl := Option.some.inj h
        exact .record ((Json.fields?_eq_some_iff _ _ _).1 hfields)
          ((Json.fieldOr_eq_some_iff LoadOptions.ofJson?_eq_some_iff _ _ _).1 hload)
          ((Json.fieldOr_eq_some_iff Json.toBool?_eq_some_iff _ _ _).1 hverify)
          ((Json.fieldOr_eq_some_iff Json.toBool?_eq_some_iff _ _ _).1 hminimal)
      · exact absurd h (by simp)
    · exact absurd h (by simp)
  · rintro ⟨fields, isLoad, isVerify, isMinimal⟩
    simp only [ofJson?, (Json.fields?_eq_some_iff _ _ _).2 fields,
      (Json.fieldOr_eq_some_iff LoadOptions.ofJson?_eq_some_iff _ _ _).2 isLoad,
      (Json.fieldOr_eq_some_iff Json.toBool?_eq_some_iff _ _ _).2 isVerify,
      (Json.fieldOr_eq_some_iff Json.toBool?_eq_some_iff _ _ _).2 isMinimal]

/-! ### Writing what was read -/

namespace Json

/-- What a value comes to when it is read and written. -/
def recoded {α : Type} (read : Json → Option α) (write : α → Json) (v : Json) : Option Json :=
  (read v).map write

/-- The values of a form are read, each one can be written and read again, and what was written
once is not changed any more. -/
structure Settles {α : Type} (read : Json → Option α) (write : α → Json)
    (form : Json → α → Prop) : Prop where
  accepts : ∀ v x, read v = some x ↔ form v x
  again : ∀ v x, read v = some x → read (write x) = some x
  settled : ∀ v w, recoded read write v = some w → recoded read write w = some w

/-- A reader settles if what it writes is among the forms that it reads. -/
theorem settles_of_forms {α : Type} {read : Json → Option α} {write : α → Json}
    {form : Json → α → Prop} (accepts : ∀ v x, read v = some x ↔ form v x)
    (written : ∀ v x, form v x → form (write x) x) : Settles read write form := by
  have hagain : ∀ v x, read v = some x → read (write x) = some x := fun v x hread =>
    (accepts _ _).2 (written v x ((accepts v x).1 hread))
  refine ⟨accepts, hagain, fun v w hrecoded => ?_⟩
  obtain ⟨x, hread, rfl⟩ := Option.map_eq_some_iff.1 hrecoded
  rw [recoded, hagain v x hread, Option.map_some]

/-- What holds of a field that was left out and of one that was given. -/
theorem FieldForm.elim {α : Type} {fallback : α} {form : Json → α → Prop} {P : α → Prop}
    (hmissing : P fallback) (hgiven : ∀ v x, form v x → P x) {field : Option Json} {x : α}
    (h : FieldForm fallback form field x) : P x := by
  cases h with
  | missing => exact hmissing
  | given isForm => exact hgiven _ _ isForm

end Json

theorem ModeId.form_toJson {v : Json} {id : ModeId} (h : Form v id) : Form id.toJson id := by
  obtain ⟨isScope, isMode, _⟩ := h
  exact .text isScope isMode (trims_render isScope isMode)

theorem ConstraintFlags.form_toJson (f : ConstraintFlags) : Form f.toJson f :=
  (Json.fields?_eq_some_iff _ _ _).1 rfl

theorem Request.form_toJson {v : Json} {r : Request} (h : Form v r) : Form r.toJson r := by
  cases h with
  | setValue _ _ => exact .setValue rfl rfl
  | selectMode isId => exact .selectMode (ModeId.form_toJson isId)

namespace LoadOptions

/-- No capacity is read that is not a word. -/
theorem Form.capacity_lt {v : Json} {o : LoadOptions} (h : Form v o) :
    o.cacheCapacity < 18446744073709551616 := by
  obtain ⟨_, _, isCapacity⟩ := h
  exact isCapacity.elim (by omega) fun _ _ isWord => isWord.2

theorem form_toJson {o : LoadOptions} (h : o.cacheCapacity < 18446744073709551616) :
    Form o.toJson o :=
  .record ((Json.fields?_eq_some_iff _ _ _).1 rfl) (.given rfl) (.given ⟨rfl, h⟩)

end LoadOptions

theorem SessionOptions.form_toJson {v : Json} {o : SessionOptions} (h : Form v o) :
    Form o.toJson o := by
  obtain ⟨_, isLoad, _, _⟩ := h
  have hcapacity : o.load.cacheCapacity < 18446744073709551616 :=
    isLoad.elim (P := (·.cacheCapacity < 18446744073709551616)) (by decide)
      fun _ _ isForm => isForm.capacity_lt
  have hload := LoadOptions.form_toJson hcapacity
  exact .record ((Json.fields?_eq_some_iff _ _ _).1 rfl) (.given hload) (.given rfl) (.given rfl)

namespace Json

/-- Reading and writing settles every value that can be read, for each of the types with a JSON
form. -/
theorem forms_settle :
    Settles Digest.ofJson? Digest.toJson Digest.Form ∧
      Settles LineEnding.ofJson? LineEnding.toJson LineEnding.Form ∧
      Settles LinePatch.ofJson? LinePatch.toJson LinePatch.Form ∧
      Settles Patch.ofJson? Patch.toJson Patch.Form ∧
      Settles ModeId.ofJson? ModeId.toJson ModeId.Form ∧
      Settles InputKind.ofJson? InputKind.toJson InputKind.Form ∧
      Settles ConstraintFlags.ofJson? ConstraintFlags.toJson ConstraintFlags.Form ∧
      Settles Request.ofJson? Request.toJson Request.Form ∧
      Settles LoadOptions.ofJson? LoadOptions.toJson LoadOptions.Form ∧
      Settles SessionOptions.ofJson? SessionOptions.toJson SessionOptions.Form := by
  refine ⟨settles_of_forms Digest.ofJson?_eq_some_iff fun _ d _ => ?digest,
    settles_of_forms LineEnding.ofJson?_eq_some_iff fun _ _ _ => .text,
    settles_of_forms LinePatch.ofJson?_eq_some_iff fun _ p h => ?linePatch,
    settles_of_forms Patch.ofJson?_eq_some_iff fun v p h => ?patch,
    settles_of_forms ModeId.ofJson?_eq_some_iff fun _ _ => ModeId.form_toJson,
    settles_of_forms InputKind.ofJson?_eq_some_iff fun _ _ _ => .text,
    settles_of_forms ConstraintFlags.ofJson?_eq_some_iff fun _ f _ => f.form_toJson,
    settles_of_forms Request.ofJson?_eq_some_iff fun _ _ => Request.form_toJson,
    settles_of_forms LoadOptions.ofJson?_eq_some_iff fun _ _ h =>
      LoadOptions.form_toJson h.capacity_lt,
    settles_of_forms SessionOptions.ofJson?_eq_some_iff fun _ _ => SessionOptions.form_toJson⟩
  case digest =>
    exact (Digest.ofJson?_eq_some_iff _ d).1 d.ofJson?_toJson
  case linePatch =>
    exact (LinePatch.ofJson?_eq_some_iff _ p).1 (LinePatch.ofJson?_toJson h.bound)
  case patch =>
    have hbounds := p.exists_form_iff.1 ⟨v, (Patch.ofJson?_eq_some_iff v p).2 h⟩
    exact (Patch.ofJson?_eq_some_iff _ p).1 (Patch.ofJson?_toJson hbounds)

/-- Session options as an array without its last item, where the load options have a member that
nobody knows and lack one; and a patch as an array, with a digest in upper case and the instructions
in no order. -/
example :
    (recoded SessionOptions.ofJson? SessionOptions.toJson (.array
        [.object [("color", .null), ("cache_capacity", .nat 0)], .bool false])).map compact =
      some (SessionOptions.toJson ⟨⟨false, 0⟩, false, false⟩).compact ∧
    (recoded Patch.ofJson? Patch.toJson
        (.array [.string (String.ofList (List.replicate 64 'B')),
          .array [.array [.nat 2, .string "x"],
            .object [("new_line_text", .string "y"), ("line_index", .nat 1)]]])).map compact =
      some (Patch.toJson ⟨⟨List.replicate 32 0xbb, rfl⟩, [⟨2, "x"⟩, ⟨1, "y"⟩]⟩).compact := by
  decide +kernel

end Json

end AnnotatedEnv
