/-
Module: AnnotatedEnv.Proofs.OptionWords
Purpose: Option texts say together what they say one after the other.
Main exports: ValueOptions.join, ValueOptions.ofTokens_append, ValueOptions.ofText_append,
  ValueOptions.SaidBy, ValueOptions.HasTokens, ValueOptions.Reworded,
  ValueOptions.option_texts_join
Joining options forgets nothing but later kinds and repetitions: an option set has its say once, in
the place where it comes first, and a set without a kind has its say in any place.
-/
import Mathlib.Logic.Relation
import AnnotatedEnv.Proofs.KeyConstraint

namespace AnnotatedEnv

open Text

namespace ValueOptions

/-! ### Joining options -/

/-- What two sets of options say one after the other: the kind of the first that has one, and the
flags of both. -/
def join (former latter : ValueOptions) : ValueOptions where
  kind := former.kind.or latter.kind
  flags :=
    { disabled := former.flags.disabled || latter.flags.disabled
      constant := former.flags.constant || latter.flags.constant }

theorem empty_join (options : ValueOptions) : join {} options = options := by
  simp [join]

/-- Joining options is associative. -/
theorem join_assoc (a b c : ValueOptions) : (a.join b).join c = a.join (b.join c) := by
  simp [join, Option.or_assoc, Bool.or_assoc]

/-- What was said before says nothing new, whatever is said in between. -/
theorem join_join_self (a b : ValueOptions) : a.join (b.join a) = a.join b := by
  have hkind : a.kind.or (b.kind.or a.kind) = a.kind.or b.kind := by
    cases a.kind <;> cases b.kind <;> rfl
  have hflag : ∀ x y : Bool, (x || (y || x)) = (x || y) := by decide
  simp only [join, hkind, hflag]

/-- Options that were said before add nothing. -/
theorem join_join_join_self (a b c : ValueOptions) :
    a.join (b.join (a.join c)) = a.join (b.join c) :=
  calc a.join (b.join (a.join c))
      = (a.join (b.join a)).join c := by rw [join_assoc, join_assoc]
    _ = (a.join b).join c := by rw [join_join_self]
    _ = a.join (b.join c) := join_assoc a b c

/-- Options that have no kind may be said earlier or later. -/
theorem join_comm_of_kind_none {a : ValueOptions} (h : a.kind = none) (b : ValueOptions) :
    a.join b = b.join a := by
  simp [join, h, Bool.or_comm]

/-- Flags may be said in any place. -/
theorem join_left_comm_of_kind_none {a : ValueOptions} (h : a.kind = none) (b c : ValueOptions) :
    a.join (b.join c) = b.join (a.join c) := by
  rw [← join_assoc, join_comm_of_kind_none h, join_assoc]

/-! ### Tokens -/

/-- The first kind and all flags are found in the front or in the back. -/
theorem ofTokens_append (front back : List String) :
    ofTokens (front ++ back) = (ofTokens front).join (ofTokens back) := by
  obtain ⟨hdisabled, hconstant⟩ := flags_ofTokens (front ++ back)
  obtain ⟨hdisabledFront, hconstantFront⟩ := flags_ofTokens front
  obtain ⟨hdisabledBack, hconstantBack⟩ := flags_ofTokens back
  have hkind : (ofTokens (front ++ back)).kind = ((ofTokens front).join (ofTokens back)).kind := by
    rw [join, kind_ofTokens, kind_ofTokens, kind_ofTokens, List.findSome?_append]
  have hflags : (ofTokens (front ++ back)).flags =
      ((ofTokens front).join (ofTokens back)).flags := by
    refine ConstraintFlags.eq_of_iff ?_ ?_
    · rw [hdisabled, List.mem_append, join, Bool.or_eq_true, hdisabledFront, hdisabledBack]
    · rw [hconstant, List.mem_append, join, Bool.or_eq_true, hconstantFront, hconstantBack]
  exact congrArg₂ ValueOptions.mk hkind hflags

/-- The options of some tokens are those of each of them joined in order. -/
theorem ofTokens_append_cons (front : List String) (w : String) (back : List String) :
    ofTokens (front ++ w :: back) =
      (ofTokens front).join ((ofTokens [w]).join (ofTokens back)) := by
  rw [← List.singleton_append, ofTokens_append, ofTokens_append]

/-- What option tokens say: the first kind that is named, and all flags that are named. -/
structure SaidBy (tokens : List String) (options : ValueOptions) : Prop where
  kind : ∀ kind : InputKind, options.kind = some kind ↔
    ∃ front back, tokens = front ++ kind.word :: back ∧
      ∀ token ∈ front, ∀ other : InputKind, token ≠ other.word
  disabled : options.flags.disabled = true ↔ "disabled" ∈ tokens
  constant : options.flags.constant = true ↔ "constant" ∈ tokens

theorem saidBy_ofTokens (tokens : List String) : SaidBy tokens (ofTokens tokens) := by
  obtain ⟨hdisabled, hconstant⟩ := flags_ofTokens tokens
  refine ⟨fun kind => ?_, hdisabled, hconstant⟩
  rw [kind_ofTokens, List.findSome?_eq_some_iff]
  simp only [InputKind.ofWord?_eq_some_iff, InputKind.ofWord?_eq_none_iff]
  constructor
  · rintro ⟨front, _, back, hsplit, rfl, hfront⟩
    exact ⟨front, back, hsplit, hfront⟩
  · rintro ⟨front, back, hsplit, hfront⟩
    exact ⟨front, _, back, hsplit, rfl, hfront⟩

/-- The option words that set a flag. -/
def IsFlag (w : String) : Prop := w = "disabled" ∨ w = "constant"

/-- The option words: those that name a kind and those that set a flag. -/
def IsOption (w : String) : Prop := (∃ kind : InputKind, w = kind.word) ∨ IsFlag w

theorem kind_of_isFlag {w : String} (h : IsFlag w) : (ofTokens [w]).kind = none := by
  rcases h with rfl | rfl <;> rfl

/-- A word that is no option says nothing. -/
theorem ofTokens_of_not_isOption {w : String} (h : ¬ IsOption w) : ofTokens [w] = {} := by
  obtain ⟨hkinds, hflags⟩ := not_or.1 h
  obtain ⟨hdisabled, hconstant⟩ := not_or.1 hflags
  have hkind := (InputKind.ofWord?_eq_none_iff w).2 (not_exists.1 hkinds)
  simp only [ofTokens, List.foldl_cons, List.foldl_nil, add, hkind, if_neg hdisabled,
    if_neg hconstant]

/-! ### Texts -/

/-- The tokens of an option text, which blanks keep apart. -/
def HasTokens (text : String) (tokens : List String) : Prop :=
  BlankSeparated text.toList (tokens.map String.toList)

/-- The options of a text are those of its tokens. -/
theorem ofText_of_hasTokens {text : String} {tokens : List String} (h : HasTokens text tokens) :
    ofText text = ofTokens tokens := by
  have htext := Constraints.ofText_eq_ofTokens h
  rwa [String.ofList_toList] at htext

theorem hasTokens_iff (text : String) (tokens : List String) :
    HasTokens text tokens ↔ words text.toList = tokens.map String.toList :=
  (words_eq_iff _ _).symm

theorem hasTokens_words (text : String) :
    HasTokens text ((words text.toList).map String.ofList) :=
  blankSeparated_words text.toList

/-- A blank between two texts ends the last token of the first one. -/
theorem ofText_append {c : Char} (hc : isBlank c = true) (a b : String) :
    ofText (a ++ String.singleton c ++ b) = (ofText a).join (ofText b) := by
  have hchars : (a ++ String.singleton c ++ b).toList = a.toList ++ c :: b.toList := by simp
  have hjoined : HasTokens (a ++ String.singleton c ++ b)
      ((words a.toList).map String.ofList ++ (words b.toList).map String.ofList) := by
    rw [← List.map_append, ← words_append_blank hc, ← hchars]
    exact hasTokens_words _
  rw [ofText_of_hasTokens hjoined, ofTokens_append, ofText_of_hasTokens (hasTokens_words a),
    ofText_of_hasTokens (hasTokens_words b)]

/-! ### Other words for the same -/

/-- One change to an option text after which it still says the same. -/
inductive Reworded (old new : String) : Prop where
  /-- There are other blanks between the tokens and around them. -/
  | respaced {tokens : List String} (before : HasTokens old tokens) (after : HasTokens new tokens)
  | unknown {front back : List String} {w : String} (unknown : ¬ IsOption w)
      (before : HasTokens old (front ++ back)) (after : HasTokens new (front ++ w :: back))
  /-- A token is said once more in a later place. -/
  | repeated {front mid back : List String} {w : String}
      (before : HasTokens old (front ++ w :: (mid ++ back)))
      (after : HasTokens new (front ++ w :: (mid ++ w :: back)))
  /-- A flag word goes behind other tokens. -/
  | moved {front mid back : List String} {w : String} (flag : IsFlag w)
      (before : HasTokens old (front ++ w :: (mid ++ back)))
      (after : HasTokens new (front ++ (mid ++ w :: back)))

/-- Rewording a text leaves its options alone. -/
theorem ofText_of_reworded {old new : String} (h : Reworded old new) : ofText old = ofText new := by
  cases h with
  | respaced before after => rw [ofText_of_hasTokens before, ofText_of_hasTokens after]
  | @unknown front back w unknown before after =>
      rw [ofText_of_hasTokens before, ofText_of_hasTokens after, ofTokens_append,
        ofTokens_append_cons, ofTokens_of_not_isOption unknown, empty_join]
  | @repeated front mid back w before after =>
      rw [ofText_of_hasTokens before, ofText_of_hasTokens after,
        ofTokens_append_cons front w (mid ++ back), ofTokens_append mid back,
        ofTokens_append_cons front w (mid ++ w :: back), ofTokens_append_cons mid w back,
        join_join_join_self]
  | @moved front mid back w flag before after =>
      rw [ofText_of_hasTokens before, ofText_of_hasTokens after,
        ofTokens_append_cons front w (mid ++ back), ofTokens_append mid back,
        ofTokens_append front (mid ++ w :: back), ofTokens_append_cons mid w back,
        join_left_comm_of_kind_none (kind_of_isFlag flag)]

/-- So does any number of rewordings, forth or back. -/
theorem ofText_of_eqvGen {a b : String} (h : Relation.EqvGen Reworded a b) :
    ofText a = ofText b := by
  induction h with
  | rel _ _ hab => exact ofText_of_reworded hab
  | refl _ => rfl
  | symm _ _ _ ih => exact ih.symm
  | trans _ _ _ _ _ ihab ihbc => exact ihab.trans ihbc

/-- A text says what its tokens say, and two texts with a blank between them say what the first one
says and then the second one. So unknown words, blanks, repetitions and the places of flag words
make no difference, however many of them are put in, taken out or changed. -/
theorem option_texts_join :
    (∀ (text : String) (tokens : List String), HasTokens text tokens →
        SaidBy tokens (ofText text)) ∧
      (∀ (a b : String) (c : Char), isBlank c = true →
        ofText (a ++ String.singleton c ++ b) = (ofText a).join (ofText b)) ∧
      ∀ a b : String, Relation.EqvGen Reworded a b → ofText a = ofText b := by
  refine ⟨fun text tokens htokens => ?_, fun a b c hc => ofText_append hc a b,
    fun a b hchain => ofText_of_eqvGen hchain⟩
  rw [ofText_of_hasTokens htokens]
  exact saidBy_ofTokens tokens

/-- A flag word that is moved and repeated, an unknown word and other blanks. -/
theorem respelled_options_join :
    let a := "boolean future-flag constant"
    let b := "\tconstant boolean\u3000constant\n"
    (HasTokens a ["boolean", "future-flag", "constant"] ∧
        SaidBy ["boolean", "future-flag", "constant"] (ofText a)) ∧
      (isBlank '\u3000' = true ∧ ofText ("select" ++ String.singleton '\u3000' ++ b) =
        (ofText "select").join (ofText b)) ∧
      Relation.EqvGen Reworded a b ∧ ofText a = ofText b := by
  intro a b
  have hblank : isBlank '\u3000' = true := by decide
  have hunknown : ¬ IsOption "future-flag" := by
    rintro (⟨kind, hkind⟩ | hdisabled | hconstant)
    · cases kind <;> exact absurd hkind (by decide)
    · exact absurd hdisabled (by decide)
    · exact absurd hconstant (by decide)
  have hold : HasTokens a ["boolean", "future-flag", "constant"] :=
    (hasTokens_iff _ _).2 (by decide +kernel)
  have hnew : HasTokens b ["constant", "boolean", "constant"] :=
    (hasTokens_iff _ _).2 (by decide +kernel)
  have hknown : HasTokens "boolean constant" ["boolean", "constant"] :=
    (hasTokens_iff _ _).2 (by decide +kernel)
  have hordered : HasTokens "constant boolean" ["constant", "boolean"] :=
    (hasTokens_iff _ _).2 (by decide +kernel)
  have hfirst : Reworded "boolean constant" a :=
    @Reworded.unknown _ _ ["boolean"] ["constant"] "future-flag" hunknown hknown hold
  have hsecond : Reworded "constant boolean" "boolean constant" :=
    @Reworded.moved _ _ [] ["boolean"] [] "constant" (.inr rfl) hordered hknown
  have hthird : Reworded "constant boolean" b :=
    @Reworded.repeated _ _ [] ["boolean"] [] "constant" hordered hnew
  have hchain : Relation.EqvGen Reworded a b :=
    .trans _ _ _ (.symm _ _ (.rel _ _ hfirst))
      (.trans _ _ _ (.symm _ _ (.rel _ _ hsecond)) (.rel _ _ hthird))
  obtain ⟨hsaid, hjoined, hreworded⟩ := option_texts_join
  exact ⟨⟨hold, hsaid a _ hold⟩, ⟨hblank, hjoined "select" b _ hblank⟩, hchain,
    hreworded a b hchain⟩

end ValueOptions

end AnnotatedEnv
