/-
Module: AnnotatedEnv.Proofs.Overlay
Purpose: Requests as overlays of a configuration, and what can stop one from being written.
Main exports: Request.record, Request.compute_eq_map_record, OrderedMap.replaceAll_self,
  OrderedMap.replaceAll_comm, Document.AssignsFrom, Model.Obstacle,
  Model.patchFor_eq_error_iff_obstacle, Model.requests_are_overlays
What a request changes depends on the keys of a configuration and not on its values, and no request
changes the keys.
-/
import AnnotatedEnv.Proofs.WriteBack

namespace AnnotatedEnv

/-! ### Overlays -/

namespace OrderedMap

variable {α β : Type} [DecidableEq α]

/-- What entries of another map leave of the value of a key. -/
theorem get?_replaceAll_entries (m n : OrderedMap α β) {k : α} (h : k ∈ m.keys) :
    (m.replaceAll n.entries).get? k = (n.get? k).or (m.get? k) := by
  rw [get?_replaceAll m n.nodup, if_pos ((m.contains_iff_mem_keys k).2 h)]
  rfl

/-- Replacing by the same entries once more changes nothing. -/
theorem replaceAll_self (m n : OrderedMap α β) :
    (m.replaceAll n.entries).replaceAll n.entries = m.replaceAll n.entries := by
  refine ext_get? (keys_replaceAll _ _) fun k hk => ?_
  have hmem : k ∈ m.keys := by rwa [keys_replaceAll] at hk
  rw [get?_replaceAll_entries _ n hk, get?_replaceAll_entries m n hmem]
  cases n.get? k <;> rfl

/-- Replacing by entries of two maps without a common key can be done in either order. -/
theorem replaceAll_comm (m : OrderedMap α β) {n p : OrderedMap α β}
    (hdisjoint : ∀ k ∈ n.keys, k ∉ p.keys) :
    (m.replaceAll n.entries).replaceAll p.entries =
      (m.replaceAll p.entries).replaceAll n.entries := by
  refine ext_get? (by simp only [keys_replaceAll]) fun k hk => ?_
  have hmem : k ∈ m.keys := by simpa only [keys_replaceAll] using hk
  have hfirst : k ∈ (m.replaceAll n.entries).keys := by rwa [keys_replaceAll]
  have hsecond : k ∈ (m.replaceAll p.entries).keys := by rwa [keys_replaceAll]
  rw [get?_replaceAll_entries _ p hfirst, get?_replaceAll_entries _ n hsecond,
    get?_replaceAll_entries m n hmem, get?_replaceAll_entries m p hmem]
  by_cases hn : k ∈ n.keys
  · rw [(p.get?_eq_none_iff k).2 (hdisjoint k hn), Option.none_or, Option.none_or]
  · rw [(n.get?_eq_none_iff k).2 hn, Option.none_or, Option.none_or]

end OrderedMap

namespace Request

/-- The entries that a request lays over a configuration with these keys, if it is accepted. -/
def record (m : Model) (keys : List String) : Request → Except OverrideError Settings
  | setValue key value =>
    if m.isConstant key then .ok .empty
    else if key ∈ keys then .ok (OrderedMap.empty.insert key value)
    else .error (.unknownKey key)
  | selectMode id =>
    match m.modes.get? id with
    | none => .error (.unknownMode id)
    | some group =>
      .ok (group.overrides.filter fun e => !m.isConstant e.1 && decide (e.1 ∈ keys))

/-- A request looks at the keys of a configuration, and at its values only to lay its record over
them. -/
theorem compute_eq_map_record (m : Model) (effective : Settings) (request : Request) :
    request.compute m effective =
      (request.record m effective.keys).map (Outcome.ofChanges effective) := by
  have hcontains : ∀ key, effective.contains key = decide (key ∈ effective.keys) := fun key => by
    rw [Bool.eq_iff_iff, OrderedMap.contains_iff_mem_keys, decide_eq_true_iff]
  cases request with
  | setValue key value =>
      simp only [compute, record, hcontains, decide_eq_true_eq]
      split
      · rfl
      · split <;> rfl
  | selectMode id =>
      simp only [compute, record, admits, hcontains]
      cases m.modes.get? id <;> rfl

/-- An accepted request lays its record over the configuration. -/
theorem compute_eq_ok_iff {m : Model} {effective : Settings} {request : Request}
    {outcome : Outcome} :
    request.compute m effective = .ok outcome ↔
      request.record m effective.keys = .ok outcome.changes ∧
        outcome.effective = effective.replaceAll outcome.changes.entries := by
  rw [compute_eq_map_record]
  cases hrecord : request.record m effective.keys with
  | error e => simp [Except.map]
  | ok changes =>
      obtain ⟨next, recorded⟩ := outcome
      simp only [Except.map, Outcome.ofChanges, Except.ok.injEq, Outcome.mk.injEq]
      constructor
      · rintro ⟨rfl, rfl⟩
        exact ⟨rfl, rfl⟩
      · rintro ⟨rfl, rfl⟩
        exact ⟨rfl, rfl⟩

/-- A request that was accepted is accepted of any configuration with the same keys, and has the
same record there. -/
theorem compute_of_keys_eq {m : Model} {effective other : Settings} {request : Request}
    {outcome : Outcome} (h : request.compute m effective = .ok outcome)
    (hkeys : other.keys = effective.keys) :
    request.compute m other = .ok (.ofChanges other outcome.changes) := by
  rw [compute_eq_ok_iff, hkeys]
  exact ⟨(compute_eq_ok_iff.1 h).1, rfl⟩

/-- A request that is applied again comes to the same outcome. -/
theorem compute_again {m : Model} {effective : Settings} {request : Request} {outcome : Outcome}
    (h : request.compute m effective = .ok outcome) :
    request.compute m outcome.effective = .ok outcome := by
  have hlaid := (compute_eq_ok_iff.1 h).2
  rw [compute_of_keys_eq h (keys_of_compute h), Outcome.ofChanges, hlaid,
    OrderedMap.replaceAll_self, ← hlaid]

/-- Requests whose records have no key in common come to the same configuration in either order,
each with the record that it has on its own. -/
theorem compute_comm {m : Model} {effective : Settings} {first second : Request}
    {one two : Outcome} (hfirst : first.compute m effective = .ok one)
    (hsecond : second.compute m effective = .ok two)
    (hdisjoint : ∀ key ∈ one.changes.keys, key ∉ two.changes.keys) :
    ∃ both, second.compute m one.effective = .ok ⟨both, two.changes⟩ ∧
      first.compute m two.effective = .ok ⟨both, one.changes⟩ := by
  refine ⟨one.effective.replaceAll two.changes.entries, ?_, ?_⟩
  · exact compute_of_keys_eq hsecond (keys_of_compute hfirst)
  · rw [compute_of_keys_eq hfirst (keys_of_compute hsecond), Outcome.ofChanges,
      (compute_eq_ok_iff.1 hfirst).2, (compute_eq_ok_iff.1 hsecond).2,
      OrderedMap.replaceAll_comm effective hdisjoint]

end Request

/-! ### Obstacles -/

/-- The document assigns the keys in order, one a line from `line` on. -/
def Document.AssignsFrom (d : Document) : (line : Nat) → List String → Prop
  | _, [] => True
  | line, key :: keys => d.Assigns line key ∧ d.AssignsFrom (line + 1) keys

/-- Each of the keys has its line. -/
theorem Document.AssignsFrom.assigns {d : Document} {line : Nat} {front back : List String}
    {key : String} (h : d.AssignsFrom line (front ++ key :: back)) :
    d.Assigns (line + front.length) key := by
  induction front generalizing line with
  | nil => exact h.1
  | cons held front ih =>
      have hrest := ih h.2
      rwa [Nat.add_assoc, Nat.add_comm 1] at hrest

namespace Model

/-- What stops every configuration with the keys of the template from being written back. -/
inductive Obstacle (m : Model) : WriteBackError → Prop where
  | noTarget (keyed : m.template.keys ≠ []) (missing : m.target = none) :
      Obstacle m .missingTarget
  /-- The first key that its line does not assign. -/
  | misplaced {target : PatchTarget} {front back : List String} {key : String}
      (place : m.target = some target) (keys : m.template.keys = front ++ key :: back)
      (before : m.document.AssignsFrom target.firstLine front)
      (missing : ¬ m.document.Assigns (target.firstLine + front.length) key) :
      Obstacle m (.layoutMismatch (target.firstLine + front.length) key)
  /-- All keys are in their places, but the body assigns one of them once more. -/
  | repeated {target : PatchTarget} (keyed : m.template.keys ≠ [])
      (place : m.target = some target)
      (inPlace : m.document.AssignsFrom target.firstLine m.template.keys)
      (more : m.template.size < target.assignmentLines) :
      Obstacle m (.repeatedKeys target.tagLine target.assignmentLines m.template.size)

/-- The first line that does not assign its key is to blame. -/
theorem instructionsFrom_eq_error_iff_first (m : Model) (line : Nat) (entries : List Entry)
    (e : WriteBackError) :
    m.instructionsFrom line entries = .error e ↔
      ∃ front key back, entries.map Prod.fst = front ++ key :: back ∧
        m.document.AssignsFrom line front ∧ ¬ m.document.Assigns (line + front.length) key ∧
        e = .layoutMismatch (line + front.length) key := by
  induction entries generalizing line with
  | nil => simp [instructionsFrom]
  | cons entry entries ih =>
      obtain ⟨key, value⟩ := entry
      by_cases hholds : m.document.Assigns line key
      · have hrest : m.instructionsFrom line ((key, value) :: entries) = .error e ↔
            m.instructionsFrom (line + 1) entries = .error e := by
          rw [instructionsFrom, if_pos ((m.holdsKey_iff line key).2 hholds)]
          cases m.instructionsFrom (line + 1) entries <;> simp [Except.map]
        rw [hrest, ih]
        constructor
        · rintro ⟨front, k, back, hkeys, hfront, hmissing, rfl⟩
          have hlength : line + (key :: front).length = line + 1 + front.length := by
            rw [List.length_cons]
            omega
          refine ⟨key :: front, k, back, ?_, ⟨hholds, hfront⟩, ?_, ?_⟩
          · rw [List.map_cons, hkeys, List.cons_append]
          · rwa [hlength]
          · rw [hlength]
        · rintro ⟨front, k, back, hkeys, hfront, hmissing, rfl⟩
          cases front with
          | nil =>
              obtain rfl : key = k := (List.cons.inj hkeys).1
              exact absurd hholds hmissing
          | cons held front =>
              have hlength : line + (held :: front).length = line + 1 + front.length := by
                rw [List.length_cons]
                omega
              rw [hlength] at hmissing ⊢
              exact ⟨front, k, back, (List.cons.inj hkeys).2, hfront.2, hmissing, rfl⟩
      · have hmissing : ¬ m.holdsKey line key = true := fun h =>
          hholds ((m.holdsKey_iff line key).1 h)
        rw [instructionsFrom, if_neg hmissing]
        constructor
        · intro h
          exact ⟨[], key, entries.map Prod.fst, rfl, trivial, hholds, (Except.error.inj h).symm⟩
        · rintro ⟨front, k, back, hkeys, hfront, _, rfl⟩
          cases front with
          | nil =>
              obtain rfl : key = k := (List.cons.inj hkeys).1
              rfl
          | cons held front =>
              obtain rfl : key = held := (List.cons.inj hkeys).1
              exact absurd hfront.1 hholds

/-- Instructions are only made for lines that assign the keys in order. -/
theorem assignsFrom_of_instructionsFrom {m : Model} {line : Nat} {entries : List Entry}
    {instructions : List LinePatch} (h : m.instructionsFrom line entries = .ok instructions) :
    m.document.AssignsFrom line (entries.map Prod.fst) := by
  induction entries generalizing line instructions with
  | nil => trivial
  | cons entry entries ih =>
      obtain ⟨hholds, behind, hbehind, _⟩ := instructionsFrom_cons_eq_ok h
      exact ⟨(m.holdsKey_iff line entry.1).1 hholds, ih hbehind⟩

/-- Writing fails for the same reason whatever the values are. -/
theorem patchFor_eq_error_iff_obstacle {m : Model} {effective : Settings}
    (hkeys : effective.keys = m.template.keys) (e : WriteBackError) :
    m.patchFor effective = .error e ↔ m.Obstacle e := by
  have hempty : effective.isEmpty = true ↔ m.template.keys = [] := by
    rw [← hkeys, OrderedMap.isEmpty, OrderedMap.keys, List.isEmpty_iff, List.map_eq_nil_iff]
  have hsize : effective.size = m.template.size := by
    rw [OrderedMap.size_eq_length_keys, hkeys, ← OrderedMap.size_eq_length_keys]
  have hentries : effective.entries.map Prod.fst = m.template.keys := hkeys
  constructor
  · intro h
    rw [patchFor] at h
    split at h
    · exact absurd h (by simp)
    · next hne =>
      have hkeyed : m.template.keys ≠ [] := fun hnil => hne (hempty.2 hnil)
      split at h
      · next htarget =>
        obtain rfl : .missingTarget = e := Except.error.inj h
        exact .noTarget hkeyed htarget
      · next target htarget =>
        split at h
        · next cause hinstructions =>
          obtain rfl : cause = e := Except.error.inj h
          obtain ⟨front, key, back, hsplit, hfront, hmissing, rfl⟩ :=
            (instructionsFrom_eq_error_iff_first m _ _ _).1 hinstructions
          exact .misplaced htarget (hentries.symm.trans hsplit) hfront hmissing
        · next instructions hinstructions =>
          split at h
          · next hmore =>
            have hplaces := assignsFrom_of_instructionsFrom hinstructions
            rw [hentries] at hplaces
            rw [hsize] at h hmore
            obtain rfl := Except.error.inj h
            exact .repeated hkeyed htarget hplaces hmore
          · exact absurd h (by simp)
  · intro h
    have hkeyed : m.template.keys ≠ [] := by
      cases h with
      | noTarget keyed missing => exact keyed
      | misplaced place keys before missing => simp [keys]
      | repeated keyed place inPlace more => exact keyed
    rw [patchFor, if_neg fun htrue => hkeyed (hempty.1 htrue)]
    cases h with
    | noTarget keyed missing => rw [missing]
    | @misplaced target front back key place keys before missing =>
        have hinstructions := (instructionsFrom_eq_error_iff_first m target.firstLine
          effective.entries _).2 ⟨front, key, back, hentries.trans keys, before, missing, rfl⟩
        simp only [place, hinstructions]
    | @repeated target keyed place inPlace more =>
        cases hinstructions : m.instructionsFrom target.firstLine effective.entries with
        | error cause =>
            obtain ⟨front, key, back, hsplit, _, hmissing, _⟩ :=
              (instructionsFrom_eq_error_iff_first m _ _ _).1 hinstructions
            rw [← hentries, hsplit] at inPlace
            exact absurd inPlace.assigns hmissing
        | ok instructions => simp only [place, hinstructions, hsize, if_pos more]

/-! ### Edits -/

/-- Without changes nothing has to be written, and with changes the edit fails as writing does. -/
theorem edit_of_compute {m : Model} {effective : Settings} {request : Request} {outcome : Outcome}
    (h : request.compute m effective = .ok outcome) :
    m.edit effective request =
      if outcome.isNoop then .ok ⟨outcome.effective, outcome.changes, .empty m.document.digest⟩
      else
        match m.patchFor outcome.effective with
        | .error e => .error (.writeBack e)
        | .ok patch => .ok ⟨outcome.effective, outcome.changes, patch⟩ := by
  cases hpatch : m.patchFor outcome.effective with
  | error e => simp only [edit, h, hpatch]
  | ok patch => simp only [edit, h, hpatch]

/-- A request that is applied again gives the edit that it gave before, or fails again. -/
theorem edit_again {m : Model} {effective : Settings} {request : Request} {outcome : Outcome}
    (h : request.compute m effective = .ok outcome) :
    m.edit outcome.effective request = m.edit effective request := by
  rw [edit_of_compute (Request.compute_again h), edit_of_compute h]

/-- An edit fails to be written back exactly if it changes something and something is in the way. -/
theorem edit_eq_writeBack_iff {m : Model} {effective : Settings} {request : Request}
    {outcome : Outcome} (hkeys : effective.keys = m.template.keys)
    (h : request.compute m effective = .ok outcome) (e : WriteBackError) :
    m.edit effective request = .error (.writeBack e) ↔ outcome.isNoop = false ∧ m.Obstacle e := by
  have hnext : outcome.effective.keys = m.template.keys :=
    (Request.keys_of_compute h).trans hkeys
  rw [← patchFor_eq_error_iff_obstacle hnext, edit_of_compute h]
  cases outcome.isNoop with
  | true => simp
  | false => cases m.patchFor outcome.effective <;> simp

/-- Over a configuration with the keys of the template, a request that is applied again changes
nothing more and fails again if it failed, and requests whose records have no key in common can
change places. Whether and why a configuration cannot be written is a matter of the model alone. -/
theorem requests_are_overlays (m : Model) {effective : Settings}
    (hkeys : effective.keys = m.template.keys) :
    (∀ (request : Request) (outcome : Outcome), request.compute m effective = .ok outcome →
        request.compute m outcome.effective = .ok outcome ∧
          m.edit outcome.effective request = m.edit effective request) ∧
      (∀ (first second : Request) (one two : Outcome), first.compute m effective = .ok one →
        second.compute m effective = .ok two →
        (∀ key ∈ one.changes.keys, key ∉ two.changes.keys) →
          ∃ there back, second.compute m one.effective = .ok there ∧
            first.compute m two.effective = .ok back ∧ there.effective = back.effective ∧
            there.changes = two.changes ∧ back.changes = one.changes ∧
            m.patchFor there.effective = m.patchFor back.effective) ∧
      (∀ e, m.patchFor effective = .error e ↔ m.Obstacle e) ∧
      ∀ (request : Request) (outcome : Outcome), request.compute m effective = .ok outcome →
        ∀ e, m.edit effective request = .error (.writeBack e) ↔
          outcome.isNoop = false ∧ m.Obstacle e := by
  refine ⟨fun request outcome h => ⟨Request.compute_again h, edit_again h⟩,
    fun first second one two hfirst hsecond hdisjoint => ?_,
    patchFor_eq_error_iff_obstacle hkeys,
    fun request outcome h => edit_eq_writeBack_iff hkeys h⟩
  obtain ⟨both, hthere, hback⟩ := Request.compute_comm hfirst hsecond hdisjoint
  exact ⟨_, _, hthere, hback, rfl, rfl, rfl, rfl⟩

/-- A preset that names a constant and a key outside the template, and a value that is set before or
after it. In the other document a comment is in the way of every edit. -/
theorem preset_and_value_overlay :
    let m := ofDocument (.ofLines ["// @env-template", "A=1", "B=2", "C=3", "// @env-mode:m.n",
      "// C=8", "// Z=1", "// B=9", "// @env-value:B(constant)"]) {}
    let effective : Settings := .ofList [("A", "4"), ("B", "2"), ("C", "5")]
    let other := ofDocument (.ofLines ["// @env-template", "A=1", "# B is next", "B=2"]) {}
    let written : Settings := .ofList [("A", "4"), ("B", "5")]
    (effective.keys = m.template.keys ∧ written.keys = other.template.keys) ∧
      (∃ there back, (Request.setValue "A" "6").compute m
            (.ofList [("A", "4"), ("B", "2"), ("C", "8")]) = .ok there ∧
          (Request.selectMode ⟨"m", "n"⟩).compute m
            (.ofList [("A", "6"), ("B", "2"), ("C", "5")]) = .ok back ∧
          there.effective = back.effective ∧ there.changes = .ofList [("A", "6")] ∧
          back.changes = .ofList [("C", "8")] ∧
          m.patchFor there.effective = m.patchFor back.effective) ∧
      other.edit written (.setValue "A" "6") = .error (.writeBack (.layoutMismatch 2 "B")) := by
  intro m effective other written
  have hkeys : effective.keys = m.template.keys := by decide +kernel
  have hwritten : written.keys = other.template.keys := by decide +kernel
  refine ⟨⟨hkeys, hwritten⟩, ?_, ?_⟩
  · have hmode : (Request.selectMode ⟨"m", "n"⟩).compute m effective =
        .ok ⟨.ofList [("A", "4"), ("B", "2"), ("C", "8")], .ofList [("C", "8")]⟩ := by
      decide +kernel
    have hset : (Request.setValue "A" "6").compute m effective =
        .ok ⟨.ofList [("A", "6"), ("B", "2"), ("C", "5")], .ofList [("A", "6")]⟩ := by
      decide +kernel
    have hdisjoint : ∀ key ∈ (OrderedMap.ofList [("C", "8")] : Settings).keys,
        key ∉ (OrderedMap.ofList [("A", "6")] : Settings).keys := by
      decide
    obtain ⟨_, hcomm, _⟩ := requests_are_overlays m hkeys
    obtain ⟨there, back, hthere, hback, hsame, hvalue, hpreset, hpatch⟩ :=
      hcomm _ _ _ _ hmode hset hdisjoint
    exact ⟨there, back, hthere, hback, hsame, hvalue, hpreset, hpatch⟩
  · have hset : (Request.setValue "A" "6").compute other written =
        .ok ⟨.ofList [("A", "6"), ("B", "5")], .ofList [("A", "6")]⟩ := by
      decide +kernel
    refine ((requests_are_overlays other hwritten).2.2.2 _ _ hset _).2 ⟨by decide +kernel, ?_⟩
    have htarget : other.target = some ⟨.template, 0, 2⟩ := by decide +kernel
    have hsplit : other.template.keys = ["A"] ++ "B" :: [] := by decide +kernel
    refine .misplaced htarget hsplit ⟨⟨"A=1", "1", ?_, ?_⟩, trivial⟩ ?_
    · decide +kernel
    · decide +kernel
    · rw [← holdsKey_iff]
      decide +kernel

end Model

end AnnotatedEnv
