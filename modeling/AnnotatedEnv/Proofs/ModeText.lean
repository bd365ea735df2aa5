/-
Module: AnnotatedEnv.Proofs.ModeText
Purpose: The texts that mode ids are read from, and how the text of an id names it.
Main exports: ModeId.IsWordRun, ModeId.TextReads, ModeId.read?_eq_some_iff, ModeId.ofText_eq_ok_iff,
  ModeId.ofText_render, ModeId.SelectedByText, Invocation.ofArguments_mode,
  ModeId.text_determines_id
The dot is no word character, so it can stand in one place of an id only; and word characters are
no blanks, so trimming takes nothing from an id.
-/
import AnnotatedEnv.CommandLine.Arguments
import AnnotatedEnv.Json.Forms
import AnnotatedEnv.Proofs.Cuts
import AnnotatedEnv.Proofs.Model

namespace AnnotatedEnv

open Text

namespace ModeId

/-! ### The form of an id -/

/-- One or more word characters and nothing else. -/
structure IsWordRun (s : String) : Prop where
  nonempty : s.toList ≠ []
  chars : ∀ c ∈ s.toList, isWord c = true

inductive TextReads (text : String) : Except TagError ModeId → Prop where
  | accepted {scope mode : String} (isScope : IsWordRun scope) (isMode : IsWordRun mode)
      (trims : Trims text.toList (scope.toList ++ '.' :: mode.toList)) :
      TextReads text (.ok ⟨scope, mode⟩)
  | refused
      (other : ∀ scope mode, IsWordRun scope → IsWordRun mode →
        ¬ Trims text.toList (scope.toList ++ '.' :: mode.toList)) :
      TextReads text (.error (.invalidMode text))

/-- The written form of an id selects its preset of a model in a request and on a command line. -/
structure SelectedByText (m : Model) (id : ModeId) : Prop where
  request : Request.ofJson? (.object [("select_mode", .string id.render)]) = some (.selectMode id)
  argument : ∀ file : String, file ≠ "" → file.toList.head? ≠ some '-' →
    Invocation.ofArguments ["mode", file, id.render] =
      .ok
        { config := none, legacyOverwritten := false, logJson := false, file
          action := .mode id }
  accepted : ∀ effective : Settings, ∃ outcome,
    (Request.selectMode id).compute m effective = .ok outcome

/-! ### Reading an id -/

theorem isWord_dot : isWord '.' = false := by decide +kernel

theorem isWord_dash : isWord '-' = false := by decide +kernel

theorem toList_render (id : ModeId) :
    id.render.toList = id.scope.toList ++ '.' :: id.mode.toList := by
  simp [render]

/-- A scope and a mode are told apart at the dot between two runs of word characters. -/
theorem read?_eq_some_iff (cs : List Char) (id : ModeId) :
    read? cs = some id ↔
      IsWordRun id.scope ∧ IsWordRun id.mode ∧ cs = id.scope.toList ++ '.' :: id.mode.toList := by
  constructor
  · intro h
    unfold read? at h
    split at h
    · next s ss m ms htake hdrop =>
      split at h
      · next hmode =>
        obtain rfl := Option.some.inj h
        have hscope : ∀ c ∈ s :: ss, isWord c = true := htake ▸ forall_mem_takeWhile isWord cs
        refine ⟨⟨by simp, by simpa using hscope⟩, ⟨by simp, ?_⟩, ?_⟩
        · rw [String.toList_ofList]
          exact List.all_eq_true.1 hmode
        · rw [String.toList_ofList, String.toList_ofList, ← htake, ← hdrop,
            List.takeWhile_append_dropWhile]
      · exact absurd h (by simp)
    · exact absurd h (by simp)
  · rintro ⟨hscope, hmode, rfl⟩
    rcases id with ⟨scope, mode⟩
    dsimp only at hscope hmode ⊢
    have hends := head?_cons_eq_false isWord_dot mode.toList
    have htake := takeWhile_run hscope.chars hends
    have hdrop := dropWhile_run hscope.chars hends
    have hall : mode.toList.all isWord = true := List.all_eq_true.2 hmode.chars
    obtain ⟨s, ss, hs⟩ := List.exists_cons_of_ne_nil hscope.nonempty
    obtain ⟨m, ms, hm⟩ := List.exists_cons_of_ne_nil hmode.nonempty
    rw [hs, hm] at htake hdrop
    rw [hm] at hall
    rw [hs, hm]
    simp only [read?, htake, hdrop, hall, if_true]
    rw [← hs, ← hm, String.ofList_toList, String.ofList_toList]

/-- A text is an identifier exactly if such runs and a dot are all of it between its blanks. -/
theorem ofText_eq_ok_iff (text : String) (id : ModeId) :
    ofText text = .ok id ↔
      IsWordRun id.scope ∧ IsWordRun id.mode ∧
        Trims text.toList (id.scope.toList ++ '.' :: id.mode.toList) := by
  rw [← trim_eq_iff, ← read?_eq_some_iff, ofText]
  cases read? (trim text.toList) <;> simp

/-- What comes of a text is told by the relation, and by nothing else. -/
theorem ofText_eq_iff (text : String) (result : Except TagError ModeId) :
    ofText text = result ↔ TextReads text result := by
  constructor
  · intro h
    cases result with
    | ok id =>
        obtain ⟨hscope, hmode, htrims⟩ := (ofText_eq_ok_iff text id).1 h
        exact .accepted hscope hmode htrims
    | error e =>
        have hrefused : e = .invalidMode text := by
          unfold ofText at h
          split at h
          · exact absurd h (by simp)
          · exact (Except.error.inj h).symm
        rw [hrefused]
        refine .refused fun scope mode hscope hmode htrims => ?_
        have hok := (ofText_eq_ok_iff text ⟨scope, mode⟩).2 ⟨hscope, hmode, htrims⟩
        exact absurd (h.symm.trans hok) (by simp)
  · intro h
    cases h with
    | accepted isScope isMode trims => exact (ofText_eq_ok_iff _ _).2 ⟨isScope, isMode, trims⟩
    | refused other =>
        unfold ofText
        split
        · next id hread =>
          obtain ⟨hscope, hmode, htrims⟩ := (read?_eq_some_iff _ _).1 hread
          exact absurd ((trim_eq_iff _ _).1 htrims) (other _ _ hscope hmode)
        · rfl

/-! ### Writing an id -/

theorem IsWordRun.isBlank_eq_false {s : String} (h : IsWordRun s) {c : Char} (hc : c ∈ s.toList) :
    isBlank c = false := by
  cases hblank : isBlank c with
  | false => rfl
  | true => exact absurd (h.chars c hc) (by simp [isWord_eq_false_of_isBlank hblank])

/-- The written form of an id begins with the scope. -/
theorem IsWordRun.head?_render {scope : String} (h : IsWordRun scope) (mode : String) :
    (render ⟨scope, mode⟩).toList.head? = scope.toList.head? := by
  obtain ⟨c, cs, hcs⟩ := List.exists_cons_of_ne_nil h.nonempty
  rw [toList_render, hcs]
  rfl

/-- Trimming the written form of an id drops nothing. -/
theorem trims_render {id : ModeId} (hscope : IsWordRun id.scope) (hmode : IsWordRun id.mode) :
    Trims id.render.toList (id.scope.toList ++ '.' :: id.mode.toList) := by
  rw [toList_render]
  refine .of_forall (List.forall_mem_append.2 ⟨fun c hc => hscope.isBlank_eq_false hc, ?_⟩)
  exact List.forall_mem_cons.2 ⟨by decide, fun c hc => hmode.isBlank_eq_false hc⟩

/-- An identifier is read back from its text. -/
theorem ofText_render {id : ModeId} (hscope : IsWordRun id.scope) (hmode : IsWordRun id.mode) :
    ofText id.render = .ok id :=
  (ofText_eq_ok_iff _ _).2 ⟨hscope, hmode, trims_render hscope hmode⟩

/-- What was read from some text is read again from its written form. -/
theorem ofText_render_of_ofText {text : String} {id : ModeId} (h : ofText text = .ok id) :
    ofText id.render = .ok id := by
  obtain ⟨hscope, hmode, _⟩ := (ofText_eq_ok_iff text id).1 h
  exact ofText_render hscope hmode

end ModeId

/-! ### Selecting by the written form -/

theorem Shape.ofArgument_eq_plain {argument : String} (h : argument.toList.head? ≠ some '-') :
    Shape.ofArgument argument = .plain := by
  unfold Shape.ofArgument
  split <;> simp_all

/-- Two arguments without a dash are the file and the mode. -/
theorem readBehind_mode {file text : String} {id : ModeId} (hfile : file ≠ "")
    (hplain : file.toList.head? ≠ some '-') (htext : text.toList.head? ≠ some '-')
    (hid : ModeId.ofText text = .ok id) :
    readBehind .mode {} [file, text] = .ok { operands := [file, text] } := by
  have hfileShape := Shape.ofArgument_eq_plain hplain
  have htextShape := Shape.ofArgument_eq_plain htext
  simp [readBehind, Given.addOption, Given.addWord, Given.awaitsConfig, Given.settle, Given.count,
    Given.checkOperand, Command.arity, hfileShape, htextShape, hfile, hid]

/-- An id behind a file name is no option and has the place of the mode. -/
theorem Invocation.ofArguments_mode {file text : String} {id : ModeId} (hfile : file ≠ "")
    (hplain : file.toList.head? ≠ some '-') (htext : text.toList.head? ≠ some '-')
    (hid : ModeId.ofText text = .ok id) :
    ofArguments ["mode", file, text] =
      .ok
        { config := none, legacyOverwritten := false, logJson := false, file
          action := .mode id } := by
  have hword : Command.ofWord? "mode" = some .mode := by decide
  have htop : readTop {} ["mode", file, text] = .ok ({}, .mode, { operands := [file, text] }) := by
    simp [readTop, Given.awaitsConfig, Given.settle, hword, Except.map,
      readBehind_mode hfile hplain htext hid]
  simp [ofArguments, htop, Command.action?, hid, Except.toOption]

namespace ModeId

/-- A preset of the document is selected by the text of its identifier. -/
theorem selectedByText {m : Model} {id : ModeId} (hid : id ∈ m.modes.keys)
    (hscope : IsWordRun id.scope) (hmode : IsWordRun id.mode) : SelectedByText m id where
  request := by
    simp [Request.ofJson?, ofJson?, ofText_render hscope hmode, Except.toOption]
  argument file hfile hplain := by
    refine Invocation.ofArguments_mode hfile hplain (fun hdash => ?_) (ofText_render hscope hmode)
    rw [hscope.head?_render] at hdash
    exact absurd (hscope.chars _ (List.mem_of_head? hdash)) (by simp [isWord_dash])
  accepted effective := by
    cases hget : m.modes.get? id with
    | none => exact absurd hid ((m.modes.get?_eq_none_iff id).1 hget)
    | some group =>
        have hcompute : (Request.selectMode id).compute m effective =
            .ok (.ofChanges effective
              (group.overrides.filter fun e => Request.admits m effective e.1)) := by
          simp only [Request.compute, hget]
        exact ⟨_, hcompute⟩

/-- A model's ids have the form of an id. -/
theorem isWordRun_of_mem_modes {d : Document} {options : LoadOptions} {id : ModeId}
    (hid : id ∈ (Model.ofDocument d options).modes.keys) :
    IsWordRun id.scope ∧ IsWordRun id.mode := by
  rw [Model.modes_ofDocument, Modes.mem_keys_ofGroups] at hid
  obtain ⟨group, _, hpayload⟩ := hid
  cases htext : group.tag.payload with
  | none =>
      rw [htext] at hpayload
      exact absurd hpayload (by simp [ofPayload])
  | some text =>
      rw [htext] at hpayload
      obtain ⟨hscope, hmode, _⟩ := (ofText_eq_ok_iff text id).1 hpayload
      exact ⟨hscope, hmode⟩

/-- An id is read from the texts that are its written form up to blanks around it, and from no
other. So ids that were read from texts are told apart by their written forms, and the ids of a
model can be selected by them. -/
theorem text_determines_id :
    (∀ (text : String) (result : Except TagError ModeId),
        ofText text = result ↔ TextReads text result) ∧
      (∀ (text : String) (id : ModeId), ofText text = .ok id →
        Trims text.toList id.render.toList) ∧
      (∀ scope mode : String, IsWordRun scope → IsWordRun mode →
        ofText (render ⟨scope, mode⟩) = .ok ⟨scope, mode⟩) ∧
      (∀ (text text' : String) (id id' : ModeId), ofText text = .ok id → ofText text' = .ok id' →
        id.render = id'.render → id = id') ∧
      ∀ (d : Document) (options : LoadOptions), ∀ id ∈ (Model.ofDocument d options).modes.keys,
        SelectedByText (Model.ofDocument d options) id := by
  refine ⟨ofText_eq_iff, fun text id hid => ?_, fun scope mode hscope hmode => ?_,
    fun text text' id id' hid hid' hrender => ?_, fun d options id hid => ?_⟩
  · rw [toList_render]
    exact ((ofText_eq_ok_iff text id).1 hid).2.2
  · exact ofText_render hscope hmode
  · have hread : ofText id.render = .ok id' := by
      rw [hrender]
      exact ofText_render_of_ofText hid'
    exact Except.ok.inj ((ofText_render_of_ofText hid).symm.trans hread)
  · obtain ⟨hscope, hmode⟩ := isWordRun_of_mem_modes hid
    exact selectedByText hid hscope hmode

/-- An id with letters beyond ASCII, in the tag of a document and with other blanks around it. -/
theorem umlaut_id :
    (IsWordRun "zone_2" ∧ IsWordRun "größe" ∧
        ofText "\tzone_2.größe\u3000" = .ok ⟨"zone_2", "größe"⟩ ∧
        (⟨"zone_2", "größe"⟩ : ModeId) ∈
          (Model.ofDocument (.ofLines ["A=1", "// @env-mode: zone_2.größe"]) {}).modes.keys) ∧
      Trims "\tzone_2.größe\u3000".toList "zone_2.größe".toList ∧
      ofText "zone_2.größe" = .ok ⟨"zone_2", "größe"⟩ ∧
      (∀ (text : String) (id : ModeId), ofText text = .ok id → id.render = "zone_2.größe" →
        id = ⟨"zone_2", "größe"⟩) ∧
      SelectedByText (Model.ofDocument (.ofLines ["A=1", "// @env-mode: zone_2.größe"]) {})
        ⟨"zone_2", "größe"⟩ := by
  have hscope : IsWordRun "zone_2" := ⟨by decide, List.all_eq_true.1 (by decide +kernel)⟩
  have hmode : IsWordRun "größe" := ⟨by decide, List.all_eq_true.1 (by decide +kernel)⟩
  have htext : ofText "\tzone_2.größe\u3000" = .ok ⟨"zone_2", "größe"⟩ := by decide +kernel
  have hid : (⟨"zone_2", "größe"⟩ : ModeId) ∈
      (Model.ofDocument (.ofLines ["A=1", "// @env-mode: zone_2.größe"]) {}).modes.keys := by
    rw [Model.modes_ofDocument]
    decide +kernel
  have hrender : "zone_2.größe" = render ⟨"zone_2", "größe"⟩ := by decide +kernel
  obtain ⟨_, htrims, hread, hsame, hselected⟩ := text_determines_id
  rw [hrender]
  exact ⟨⟨hscope, hmode, htext, hid⟩, htrims _ _ htext, hread _ _ hscope hmode,
    fun text id h heq => hsame text _ id _ h htext heq, hselected _ _ _ hid⟩

/-- A dot between the parts is needed, one and no more, and a hyphen is no part of an id. -/
example :
    ofText "a.b.c" = .error (.invalidMode "a.b.c") ∧ ofText " a" = .error (.invalidMode " a") ∧
      ofText "a.b-c" = .error (.invalidMode "a.b-c") := by
  decide +kernel

end ModeId

end AnnotatedEnv
