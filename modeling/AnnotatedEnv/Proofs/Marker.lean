/-
Module: AnnotatedEnv.Proofs.Marker
Purpose: Scanning a line reads exactly the grammar of tag markers.
Main exports: BeginsMarker, MarkerAt, NameSplit, TagBehind, ReadsAs, markerHere?_eq_some_iff,
  findMarker?_eq_some_iff, scanLine_eq_iff
The grammar says where a marker may stand and what it says, with no word on how to look for one.
-/
import AnnotatedEnv.Tag

namespace AnnotatedEnv

open Text

/-! ### The grammar -/

/-- The text begins with a marker that has `behind` behind its `@`. -/
structure BeginsMarker (cs behind : List Char) : Prop where
  reads : ∃ blanks, (∀ c ∈ blanks, isBlank c = true) ∧
    cs = '/' :: '/' :: (blanks ++ '@' :: behind)
  letter : ∃ c ∈ behind.head?, c.isAlpha = true
  oneLine : '\n' ∉ behind

/-- Whether a marker may begin at a position: at the start if `fresh`, and behind a blank. -/
def mayBegin (fresh : Bool) (cs : List Char) : Nat → Bool
  | 0 => fresh
  | p + 1 => cs[p]?.any isBlank

/-- A marker stands at position `p` of a line, at its start or behind a blank. -/
structure MarkerAt (cs : List Char) (p : Nat) (behind : List Char) : Prop where
  free : mayBegin true cs p = true
  begins : BeginsMarker (cs.drop p) behind

/-- What stands behind an `@`, cut behind the longest run of name characters. -/
structure NameSplit (behind name rest : List Char) : Prop where
  split : behind = name ++ rest
  run : ∀ c ∈ name, isNameChar c = true
  ends : ∀ c ∈ rest.head?, isNameChar c = false

/-- The payload that the text behind a name holds. -/
inductive PayloadBehind : List Char → Option String → Prop where
  | colon (text : List Char) : PayloadBehind (':' :: text) (some (String.ofList (trim text)))
  | absent {rest : List Char} (other : ∀ c ∈ rest.head?, c ≠ ':') : PayloadBehind rest none

/-- What the text behind the `@` of a marker says. -/
inductive TagBehind (behind : List Char) : LineScan → Prop where
  | known {kind : TagKind} {rest : List Char} {payload : Option String}
      (named : NameSplit behind kind.name.toList rest) (follows : PayloadBehind rest payload) :
      TagBehind behind (.tag ⟨kind, payload⟩)
  | unknown {name rest : List Char} (named : NameSplit behind name rest)
      (unlisted : ∀ kind : TagKind, kind.name.toList ≠ name) :
      TagBehind behind (.unknown (String.ofList name))

/-- What a line says about tags: the first of its markers decides. -/
inductive ReadsAs (cs : List Char) : LineScan → Prop where
  | plain (unmarked : ∀ p behind, ¬ MarkerAt cs p behind) : ReadsAs cs .plain
  | marked {p : Nat} {behind : List Char} {scan : LineScan} (here : MarkerAt cs p behind)
      (first : ∀ q < p, ∀ other, ¬ MarkerAt cs q other) (tells : TagBehind behind scan) :
      ReadsAs cs scan

/-! ### Names -/

theorem isNameChar_of_isAlpha {c : Char} (h : c.isAlpha = true) : isNameChar c = true := by
  have hranges : (65, 90) ∈ wordRanges ∧ (97, 122) ∈ wordRanges := by decide +kernel
  have hletter : (c.isUpper || c.isLower) = true := h
  have hword : isWord c = true := by
    rw [isWord, inRanges, List.any_eq_true]
    rcases Bool.or_eq_true_iff.1 hletter with hupper | hlower
    · have hbounds : 'A'.val ≤ c.val ∧ c.val ≤ 'Z'.val := of_decide_eq_true hupper
      have hcode : 65 ≤ c.toNat ∧ c.toNat ≤ 90 := hbounds
      exact ⟨_, hranges.1, by simpa using hcode⟩
    · have hbounds : 'a'.val ≤ c.val ∧ c.val ≤ 'z'.val :=
        (Bool.and_eq_true_iff.1 hlower).imp of_decide_eq_true of_decide_eq_true
      have hcode : 97 ≤ c.toNat ∧ c.toNat ≤ 122 := hbounds
      exact ⟨_, hranges.2, by simpa using hcode⟩
  simp [isNameChar, hword]

theorem nameSplit_takeWhile (behind : List Char) :
    NameSplit behind (behind.takeWhile isNameChar) (behind.dropWhile isNameChar) where
  split := List.takeWhile_append_dropWhile.symm
  run := List.all_eq_true.1 List.all_takeWhile
  ends := fun c hc => by
    have hne : behind.dropWhile isNameChar ≠ [] := by
      rintro hnil
      simp [hnil] at hc
    rw [List.head?_eq_some_head hne, Option.mem_some_iff] at hc
    rw [← hc]
    exact List.head_dropWhile_not isNameChar hne

/-- There is one longest run. -/
theorem NameSplit.eq {behind name rest : List Char} (h : NameSplit behind name rest) :
    name = behind.takeWhile isNameChar ∧ rest = behind.dropWhile isNameChar := by
  obtain ⟨rfl, hrun, hends⟩ := h
  rw [List.takeWhile_append_of_pos hrun, List.dropWhile_append_of_pos hrun]
  cases rest with
  | nil => simp
  | cons c rest => simp [hends c rfl]

/-! ### A marker at the front -/

/-- A marker is read exactly where one begins, up to the end of its name. -/
theorem markerHere?_eq_some_iff (cs name rest : List Char) :
    markerHere? cs = some (name, rest) ↔
      ∃ behind, BeginsMarker cs behind ∧ NameSplit behind name rest := by
  constructor
  · intro h
    unfold markerHere? at h
    split at h
    · next inner =>
      split at h
      · next c after htrim =>
        split at h
        · next hmarker =>
          obtain ⟨hletter, hline⟩ := hmarker
          have hname := isNameChar_of_isAlpha hletter
          have hsplit := nameSplit_takeWhile (c :: after)
          simp only [List.takeWhile_cons, List.dropWhile_cons, hname, if_true] at hsplit
          obtain ⟨rfl, rfl⟩ : c :: after.takeWhile isNameChar = name ∧
              after.dropWhile isNameChar = rest := by simpa using h
          refine ⟨c :: after, ⟨⟨inner.takeWhile isBlank, ?_, ?_⟩, ⟨c, rfl, hletter⟩, ?_⟩, hsplit⟩
          · exact List.all_eq_true.1 List.all_takeWhile
          · rw [← htrim, trimStart, List.takeWhile_append_dropWhile]
          · rintro hmem
            rcases List.mem_cons.1 hmem with rfl | hmem
            · exact absurd hletter (by decide)
            · exact hline hmem
        · exact absurd h (by simp)
      · exact absurd h (by simp)
    · exact absurd h (by simp)
  · rintro ⟨behind, ⟨⟨blanks, hblanks, rfl⟩, ⟨c, hc, hletter⟩, hline⟩, hsplit⟩
    obtain ⟨after, rfl⟩ := List.head?_eq_some_iff.1 hc
    have htrim : trimStart (blanks ++ '@' :: c :: after) = '@' :: c :: after := by
      have hat : isBlank '@' = false := by decide
      rw [trimStart, List.dropWhile_append_of_pos hblanks, List.dropWhile_cons, hat]
      rfl
    have hafter : '\n' ∉ after := fun hmem => hline (List.mem_cons_of_mem c hmem)
    obtain ⟨rfl, rfl⟩ := hsplit.eq
    have hname := isNameChar_of_isAlpha hletter
    simp [markerHere?, htrim, hletter, hafter, hname]

theorem markerHere?_eq_none_iff (cs : List Char) :
    markerHere? cs = none ↔ ∀ behind, ¬ BeginsMarker cs behind := by
  constructor
  · intro h behind hbegins
    have hsome := (markerHere?_eq_some_iff cs _ _).2 ⟨behind, hbegins, nameSplit_takeWhile behind⟩
    exact absurd (h.symm.trans hsome) (by simp)
  · intro h
    cases hmarker : markerHere? cs with
    | none => rfl
    | some m =>
        obtain ⟨behind, hbegins, _⟩ := (markerHere?_eq_some_iff cs m.1 m.2).1 hmarker
        exact absurd hbegins (h behind)

/-! ### The first marker -/

@[simp] theorem mayBegin_zero (fresh : Bool) (cs : List Char) : mayBegin fresh cs 0 = fresh := rfl

@[simp] theorem mayBegin_cons_succ (fresh : Bool) (c : Char) (cs : List Char) (p : Nat) :
    mayBegin fresh (c :: cs) (p + 1) = mayBegin (isBlank c) cs p := by
  cases p <;> rfl

theorem findMarker?_eq_none_iff (fresh : Bool) (cs : List Char) :
    findMarker? fresh cs = none ↔
      ∀ p, mayBegin fresh cs p = true → markerHere? (cs.drop p) = none := by
  induction cs generalizing fresh with
  | nil => simp [findMarker?, markerHere?]
  | cons c cs ih =>
      rw [← Nat.and_forall_add_one]
      cases fresh with
      | false => simp [findMarker?, ih]
      | true => simp [findMarker?, ih]

/-- The search finds the marker at the smallest position. -/
theorem findMarker?_eq_some_iff (fresh : Bool) (cs : List Char) (m : List Char × List Char) :
    findMarker? fresh cs = some m ↔
      ∃ p, mayBegin fresh cs p = true ∧ markerHere? (cs.drop p) = some m ∧
        ∀ q < p, mayBegin fresh cs q = true → markerHere? (cs.drop q) = none := by
  induction cs generalizing fresh with
  | nil => simp [findMarker?, markerHere?]
  | cons c cs ih =>
      rw [← Nat.or_exists_add_one]
      simp only [Nat.forall_lt_succ_left, mayBegin_zero, mayBegin_cons_succ, List.drop_zero,
        List.drop_succ_cons]
      cases fresh with
      | false => simp [findMarker?, ih]
      | true =>
          cases hhere : markerHere? (c :: cs) with
          | none => simp [findMarker?, ih, hhere]
          | some found => simp [findMarker?, hhere]

/-- No marker is found exactly if none stands in the line. -/
theorem findMarker?_none_iff_unmarked (cs : List Char) :
    findMarker? true cs = none ↔ ∀ p behind, ¬ MarkerAt cs p behind := by
  rw [findMarker?_eq_none_iff]
  constructor
  · intro h p behind hmarker
    exact (markerHere?_eq_none_iff _).1 (h p hmarker.free) behind hmarker.begins
  · intro h p hfree
    exact (markerHere?_eq_none_iff _).2 fun behind hbegins => h p behind ⟨hfree, hbegins⟩

/-- The marker that is found is the first one of the line. -/
theorem findMarker?_some_iff_marked (cs name rest : List Char) :
    findMarker? true cs = some (name, rest) ↔
      ∃ p behind, MarkerAt cs p behind ∧ (∀ q < p, ∀ other, ¬ MarkerAt cs q other) ∧
        NameSplit behind name rest := by
  rw [findMarker?_eq_some_iff]
  constructor
  · rintro ⟨p, hfree, hhere, hfirst⟩
    obtain ⟨behind, hbegins, hsplit⟩ := (markerHere?_eq_some_iff _ name rest).1 hhere
    refine ⟨p, behind, ⟨hfree, hbegins⟩, fun q hq other hother => ?_, hsplit⟩
    exact (markerHere?_eq_none_iff _).1 (hfirst q hq hother.free) other hother.begins
  · rintro ⟨p, behind, hmarker, hfirst, hsplit⟩
    refine ⟨p, hmarker.free, ?_, fun q hq hfree => ?_⟩
    · exact (markerHere?_eq_some_iff _ name rest).2 ⟨behind, hmarker.begins, hsplit⟩
    · exact (markerHere?_eq_none_iff _).2 fun other hother => hfirst q hq other ⟨hfree, hother⟩

/-! ### What a marker says -/

/-- A name is unknown exactly if no kind has it. -/
theorem TagKind.ofName?_eq_none_iff (name : String) :
    ofName? name = none ↔ ∀ kind : TagKind, kind.name ≠ name := by
  constructor
  · rintro h kind rfl
    exact absurd ((ofName?_name kind).symm.trans h) (by simp)
  · intro h
    exact List.find?_eq_none.2 fun kind _ => by simpa using h kind

theorem payloadOf_of_payloadBehind {rest : List Char} {payload : Option String}
    (h : PayloadBehind rest payload) : payloadOf rest = payload := by
  cases h with
  | colon text => rfl
  | absent other =>
      cases rest with
      | nil => rfl
      | cons c rest =>
          have hc : c ≠ ':' := other c rfl
          simp [payloadOf, hc]

theorem payloadBehind_payloadOf (rest : List Char) : PayloadBehind rest (payloadOf rest) := by
  unfold payloadOf
  split
  · exact .colon _
  · next hother =>
    refine .absent fun c hc => ?_
    rintro rfl
    obtain ⟨text, rfl⟩ := List.head?_eq_some_iff.1 hc
    exact hother text rfl

/-! ### Scanning -/

/-- Each way a line may be read is the way it is scanned. -/
theorem scanLine_of_readsAs {line : String} {scan : LineScan} (h : ReadsAs line.toList scan) :
    scanLine line = scan := by
  cases h with
  | plain unmarked => rw [scanLine, (findMarker?_none_iff_unmarked _).2 unmarked]
  | marked here first tells =>
      cases tells with
      | @known kind rest payload named follows =>
          have hfind := (findMarker?_some_iff_marked _ _ _).2 ⟨_, _, here, first, named⟩
          simp [scanLine, hfind, TagKind.ofName?_name, payloadOf_of_payloadBehind follows]
      | @unknown name rest named unlisted =>
          have hfind := (findMarker?_some_iff_marked _ _ _).2 ⟨_, _, here, first, named⟩
          have hnone : TagKind.ofName? (String.ofList name) = none := by
            refine (TagKind.ofName?_eq_none_iff _).2 fun kind hkind => unlisted kind ?_
            rw [hkind, String.toList_ofList]
          simp [scanLine, hfind, hnone]

/-- Each line is read as what it is scanned as. -/
theorem readsAs_scanLine (line : String) : ReadsAs line.toList (scanLine line) := by
  rw [scanLine]
  cases hfind : findMarker? true line.toList with
  | none => exact .plain ((findMarker?_none_iff_unmarked _).1 hfind)
  | some m =>
      obtain ⟨p, behind, here, first, named⟩ := (findMarker?_some_iff_marked _ m.1 m.2).1 hfind
      dsimp only
      cases hkind : TagKind.ofName? (String.ofList m.1) with
      | none =>
          refine .marked here first (.unknown named fun kind hname => ?_)
          refine (TagKind.ofName?_eq_none_iff _).1 hkind kind ?_
          rw [← hname, String.ofList_toList]
      | some kind =>
          have hname : kind.name = String.ofList m.1 := by simpa using List.find?_some hkind
          refine .marked here first (.known ?_ (payloadBehind_payloadOf m.2))
          rwa [hname, String.toList_ofList]

/-- A line is scanned as the grammar of markers reads it, and in no other way: plain exactly without
a marker, and else as the tag or the unknown name behind the first one. -/
theorem scanLine_eq_iff (line : String) (scan : LineScan) :
    scanLine line = scan ↔ ReadsAs line.toList scan :=
  ⟨fun h => h ▸ readsAs_scanLine line, scanLine_of_readsAs⟩

/-- Neither a `//` inside a word nor one without a name behind it is a marker. -/
example : scanLine "url=http://@host // 1 // @env-mode : a.b // @env-template" =
    .tag ⟨.mode, none⟩ := by
  decide +kernel

end AnnotatedEnv
