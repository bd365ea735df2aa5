/-
Module: AnnotatedEnv.Proofs.LineForm
Purpose: A line is read as an assignment exactly if it has the form of one, and then in one way.
Main exports: Assignment.LineForm, Assignment.LineForm.text_injective, Assignment.QuotedUnit,
  Assignment.ReadsValue, Assignment.split?_eq_some_iff, Assignment.readValue_eq_iff,
  Assignment.line_forms_exact
A form is a line in its parts. Blanks are no key characters, so the first character that is of
another class ends each part, and the word `export` is a key only if `=` follows it.
-/
import AnnotatedEnv.Proofs.Cuts

namespace AnnotatedEnv

open Text

namespace Assignment

/-! ### The form of a line -/

/-- A line `KEY=VALUE` in its parts. -/
@[ext]
structure LineForm where
  /-- The blanks in front. -/
  indent : List Char
  /-- The blanks behind the word `export`, if it stands in front of the key. -/
  exporting : Option (List Char)
  key : List Char
  /-- The blanks behind the key. -/
  gap : List Char
  /-- What stands behind `=`. -/
  rest : List Char
  indent_blank : ∀ c ∈ indent, isBlank c = true
  exporting_ne_nil : ∀ blanks ∈ exporting, blanks ≠ []
  exporting_blank : ∀ blanks ∈ exporting, ∀ c ∈ blanks, isBlank c = true
  key_ne_nil : key ≠ []
  key_chars : ∀ c ∈ key, isKeyChar c = true
  gap_blank : ∀ c ∈ gap, isBlank c = true
  rest_oneLine : '\n' ∉ rest

namespace LineForm

def opening (form : LineForm) : List Char :=
  match form.exporting with
  | none => []
  | some blanks => "export".toList ++ blanks

def keyed (form : LineForm) : List Char := form.key ++ (form.gap ++ '=' :: form.rest)

def text (form : LineForm) : List Char := form.indent ++ (form.opening ++ form.keyed)

end LineForm

/-! ### The value of a line -/

/-- What may stand between double quotes: a character that is neither a quote nor a backslash, or a
backslash with the character behind it. -/
inductive QuotedUnit where
  | plain (c : Char) (ordinary : c ≠ '"' ∧ c ≠ '\\')
  | escape (c : Char)

namespace QuotedUnit

def written : QuotedUnit → List Char
  | plain c _ => [c]
  | escape c => ['\\', c]

/-- What the unit stands for; an escape without a meaning keeps its backslash. -/
def meaning : QuotedUnit → List Char
  | plain c _ => [c]
  | escape c =>
    match c with
    | 'n' => ['\n']
    | 'r' => ['\r']
    | 't' => ['\t']
    | '"' => ['"']
    | '\\' => ['\\']
    | other => ['\\', other]

end QuotedUnit

/-- A text that opens with a quote and closes it again, and the value between the quotes. -/
inductive QuotedValue : (raw value : List Char) → Prop where
  | double (units : List QuotedUnit) (behind : List Char) :
      QuotedValue ('"' :: (units.flatMap QuotedUnit.written ++ '"' :: behind))
        (units.flatMap QuotedUnit.meaning)
  | literal {quote : Char} {value behind : List Char} (mark : quote = '\'' ∨ quote = '`')
      (first : quote ∉ value) : QuotedValue (quote :: (value ++ quote :: behind)) value

/-- The part of a text in front of its first `#`, or all of a text without one. -/
structure BeforeHash (raw text : List Char) : Prop where
  cut : ∃ behind, raw = text ++ behind ∧ ∀ c ∈ behind.head?, c = '#'
  first : '#' ∉ text

/-- The value that a text without blanks in front writes. -/
inductive Writes (raw value : List Char) : Prop where
  | quoted (between : QuotedValue raw value)
  | bare {text : List Char} (unquoted : ∀ other, ¬ QuotedValue raw other)
      (before : BeforeHash raw text) (trimmed : Trims text value)

/-- The value that the text behind `=` writes. -/
def ReadsValue (rest value : List Char) : Prop := ∃ raw, TrimsStart rest raw ∧ Writes raw value

/-! ### Splitting a line -/

/-- An opening is dropped exactly if the text begins with it. -/
theorem dropPrefix?_eq_some_iff (opening cs behind : List Char) :
    dropPrefix? opening cs = some behind ↔ cs = opening ++ behind := by
  induction opening generalizing cs with
  | nil => simp [dropPrefix?]
  | cons p ps ih =>
      cases cs with
      | nil => simp [dropPrefix?]
      | cons c cs =>
          by_cases h : p = c
          · simp [dropPrefix?, h, ih]
          · have h' : ¬ c = p := fun heq => h heq.symm
            simp [dropPrefix?, h, h']

/-- The word is taken for a modifier only with blanks behind it, and they go with it. -/
theorem afterExport?_eq_some_iff (cs behind : List Char) :
    afterExport? cs = some behind ↔
      (∃ blanks, blanks ≠ [] ∧ (∀ c ∈ blanks, isBlank c = true) ∧
          cs = "export".toList ++ (blanks ++ behind)) ∧
        ∀ c ∈ behind.head?, isBlank c = false := by
  constructor
  · intro h
    unfold afterExport? at h
    split at h
    · next c after hdrop =>
      split at h
      · next hc =>
        obtain ⟨⟨front, hfront, hafter⟩, hfirst⟩ :=
          (trimStart_eq_iff after behind).1 (Option.some.inj h)
        refine ⟨⟨c :: front, by simp, List.forall_mem_cons.2 ⟨hc, hfront⟩, ?_⟩, hfirst⟩
        rw [(dropPrefix?_eq_some_iff _ _ _).1 hdrop, hafter]
        rfl
      · exact absurd h (by simp)
    · exact absurd h (by simp)
  · rintro ⟨⟨blanks, hne, hblanks, hcs⟩, hfirst⟩
    obtain ⟨c, front, rfl⟩ := List.exists_cons_of_ne_nil hne
    obtain ⟨hc, hfront⟩ := List.forall_mem_cons.1 hblanks
    have hdrop : dropPrefix? "export".toList cs = some (c :: (front ++ behind)) :=
      (dropPrefix?_eq_some_iff _ _ _).2 hcs
    have htrim : trimStart (front ++ behind) = behind := dropWhile_run hfront hfirst
    simp only [afterExport?, hdrop, hc, if_true, htrim]

/-- No key character stands behind a key: a blank does, or `=`. -/
theorem head?_gap {gap : List Char} (hgap : ∀ c ∈ gap, isBlank c = true) (rest : List Char) :
    ∀ c ∈ (gap ++ '=' :: rest).head?, isKeyChar c = false := by
  exact head?_blanks hgap fun _ => head?_cons_eq_false isKeyChar_equals rest

theorem head?_equals (rest : List Char) : ∀ c ∈ ('=' :: rest).head?, isBlank c = false :=
  head?_cons_eq_false (by decide) rest

theorem head?_key {key : List Char} (hne : key ≠ []) (hchars : ∀ c ∈ key, isKeyChar c = true)
    (behind : List Char) : ∀ c ∈ (key ++ behind).head?, isBlank c = false := by
  obtain ⟨k, ks, rfl⟩ := List.exists_cons_of_ne_nil hne
  exact head?_cons_eq_false (isBlank_eq_false_of_isKeyChar (hchars k (by simp))) (ks ++ behind)

/-- A key runs up to the equals sign, with nothing but blanks in between, and the rest is one line.
-/
theorem readKeyed?_eq_some_iff (cs key rest : List Char) :
    readKeyed? cs = some (key, rest) ↔
      key ≠ [] ∧ (∀ c ∈ key, isKeyChar c = true) ∧ '\n' ∉ rest ∧
        ∃ gap, (∀ c ∈ gap, isBlank c = true) ∧ cs = key ++ (gap ++ '=' :: rest) := by
  constructor
  · intro h
    obtain ⟨hne, hchars⟩ := keyChars_of_readKeyed? h
    simp only [readKeyed?] at h
    split at h
    · exact absurd h (by simp)
    · next after _ htrim =>
      split at h
      · exact absurd h (by simp)
      · next hline =>
        obtain ⟨hkey, rfl⟩ : cs.takeWhile isKeyChar = key ∧ after = rest := by simpa using h
        obtain ⟨⟨gap, hgap, hcut⟩, _⟩ := (trimStart_eq_iff _ _).1 htrim
        refine ⟨hne, hchars, hline, gap, hgap, ?_⟩
        rw [← hcut, ← hkey, List.takeWhile_append_dropWhile]
    · exact absurd h (by simp)
  · rintro ⟨hne, hchars, hline, gap, hgap, rfl⟩
    have htake := takeWhile_run hchars (head?_gap hgap rest)
    have hdrop := dropWhile_run hchars (head?_gap hgap rest)
    have htrim : trimStart (gap ++ '=' :: rest) = '=' :: rest :=
      dropWhile_run hgap (head?_equals rest)
    obtain ⟨k, ks, rfl⟩ := List.exists_cons_of_ne_nil hne
    simp only [readKeyed?, htake, hdrop, htrim, if_neg hline]

/-- A key is the word `export` with blanks behind it only if nothing but `=` comes next. -/
theorem behind_export_of_keyed {key gap rest blanks behind : List Char}
    (hkey : ∀ c ∈ key, isKeyChar c = true) (hgap : ∀ c ∈ gap, isBlank c = true)
    (hne : blanks ≠ []) (hblanks : ∀ c ∈ blanks, isBlank c = true)
    (hbehind : ∀ c ∈ behind.head?, isBlank c = false)
    (h : key ++ (gap ++ '=' :: rest) = "export".toList ++ (blanks ++ behind)) :
    behind = '=' :: rest := by
  have hexport : ∀ c ∈ "export".toList, isKeyChar c = true :=
    List.all_eq_true.1 (by decide +kernel)
  have hgaps : gap ++ '=' :: rest = blanks ++ behind :=
    (run_unique hkey (head?_gap hgap rest) hexport
      (head?_blanks hblanks fun hnil => absurd hnil hne) h).2
  exact (run_unique hgap (head?_equals rest) hblanks hbehind hgaps).2.symm

namespace LineForm

theorem head?_keyed (form : LineForm) : ∀ c ∈ form.keyed.head?, isBlank c = false :=
  head?_key form.key_ne_nil form.key_chars _

theorem head?_body (form : LineForm) :
    ∀ c ∈ (form.opening ++ form.keyed).head?, isBlank c = false := by
  unfold opening
  split
  · exact form.head?_keyed
  · exact head?_cons_eq_false (by decide) _

/-- What a form has behind its opening is read as its key and its rest. -/
theorem readKeyed?_keyed (form : LineForm) : readKeyed? form.keyed = some (form.key, form.rest) :=
  (readKeyed?_eq_some_iff _ _ _).2
    ⟨form.key_ne_nil, form.key_chars, form.rest_oneLine, form.gap, form.gap_blank, rfl⟩

/-- A form is split into its key and what stands behind its `=`. -/
theorem split?_text (form : LineForm) : split? form.text = some (form.key, form.rest) := by
  have htrim : trimStart form.text = form.opening ++ form.keyed :=
    dropWhile_run form.indent_blank form.head?_body
  simp only [split?, htrim]
  cases hexporting : form.exporting with
  | some blanks =>
      have hafter : afterExport? (form.opening ++ form.keyed) = some form.keyed := by
        refine (afterExport?_eq_some_iff _ _).2 ⟨⟨blanks, ?_, ?_, ?_⟩, form.head?_keyed⟩
        · exact form.exporting_ne_nil blanks hexporting
        · exact form.exporting_blank blanks hexporting
        · simp only [opening, hexporting, List.append_assoc]
      simp only [hafter, Option.bind_some, form.readKeyed?_keyed, Option.some_or]
  | none =>
      have hopening : form.opening ++ form.keyed = form.keyed := by
        simp only [opening, hexporting, List.nil_append]
      have hnone : (afterExport? form.keyed).bind readKeyed? = none := by
        rw [Option.bind_eq_none_iff]
        intro behind hafter
        obtain ⟨⟨blanks, hne, hblanks, hcut⟩, hbehind⟩ := (afterExport?_eq_some_iff _ _).1 hafter
        have hequals : behind = '=' :: form.rest :=
          behind_export_of_keyed form.key_chars form.gap_blank hne hblanks hbehind hcut
        simp [hequals, readKeyed?, isKeyChar_equals]
      rw [hopening, hnone, Option.none_or, form.readKeyed?_keyed]

/-- A key behind `export` begins with a key character, while a key `export` is followed by `=`. -/
theorem opening_append_keyed_ne {f g : LineForm} {blanks : List Char} (hf : f.exporting = none)
    (hg : g.exporting = some blanks) : f.opening ++ f.keyed ≠ g.opening ++ g.keyed := by
  intro heq
  simp only [opening, hf, hg, List.nil_append, List.append_assoc] at heq
  have hequals := behind_export_of_keyed f.key_chars f.gap_blank (g.exporting_ne_nil blanks hg)
    (g.exporting_blank blanks hg) g.head?_keyed heq
  obtain ⟨k, ks, hk⟩ := List.exists_cons_of_ne_nil g.key_ne_nil
  obtain rfl : k = '=' := by simpa [keyed, hk] using congrArg List.head? hequals
  exact absurd (g.key_chars '=' (by simp [hk])) (by simp [isKeyChar_equals])

/-- A line has one form at most. -/
theorem text_injective : Function.Injective text := by
  intro f g h
  obtain ⟨hindent, hbody⟩ := run_unique f.indent_blank f.head?_body g.indent_blank g.head?_body h
  have hparts : f.exporting = g.exporting ∧ f.keyed = g.keyed := by
    cases hf : f.exporting with
    | none =>
        cases hg : g.exporting with
        | none => exact ⟨rfl, by simpa [opening, hf, hg] using hbody⟩
        | some blanks => exact absurd hbody (opening_append_keyed_ne hf hg)
    | some blanks =>
        cases hg : g.exporting with
        | none => exact absurd hbody.symm (opening_append_keyed_ne hg hf)
        | some blanks' =>
            simp only [opening, hf, hg, List.append_assoc, List.append_cancel_left_eq] at hbody
            obtain ⟨hblanks, hkeyed⟩ := run_unique (f.exporting_blank blanks hf) f.head?_keyed
              (g.exporting_blank blanks' hg) g.head?_keyed hbody
            exact ⟨by rw [hblanks], hkeyed⟩
  obtain ⟨hkey, hgapped⟩ := run_unique f.key_chars (head?_gap f.gap_blank f.rest) g.key_chars
    (head?_gap g.gap_blank g.rest) hparts.2
  obtain ⟨hgap, hrest⟩ :=
    run_unique f.gap_blank (head?_equals _) g.gap_blank (head?_equals _) hgapped
  exact LineForm.ext hindent hparts.1 hkey hgap (List.cons.inj hrest).2

end LineForm

/-- A line is split exactly if it has a form. -/
theorem split?_eq_some_iff (line key rest : List Char) :
    split? line = some (key, rest) ↔
      ∃ form : LineForm, form.text = line ∧ form.key = key ∧ form.rest = rest := by
  constructor
  · intro h
    obtain ⟨⟨indent, hindent, hline⟩, _⟩ := (trimStart_eq_iff line (trimStart line)).1 rfl
    simp only [split?] at h
    rcases Option.or_eq_some_iff.1 h with hbehind | ⟨_, hplain⟩
    · obtain ⟨behind, hafter, hread⟩ := Option.bind_eq_some_iff.1 hbehind
      obtain ⟨⟨blanks, hne, hblanks, hbody⟩, _⟩ := (afterExport?_eq_some_iff _ _).1 hafter
      obtain ⟨hkey, hchars, hrest, gap, hgap, rfl⟩ := (readKeyed?_eq_some_iff _ _ _).1 hread
      refine ⟨⟨indent, some blanks, key, gap, rest, hindent, ?_, ?_, hkey, hchars, hgap, hrest⟩,
        ?_, rfl, rfl⟩
      · simpa using hne
      · simpa using hblanks
      · rw [LineForm.text, LineForm.opening, LineForm.keyed, hline, hbody, List.append_assoc]
    · obtain ⟨hkey, hchars, hrest, gap, hgap, hbody⟩ := (readKeyed?_eq_some_iff _ _ _).1 hplain
      refine ⟨⟨indent, none, key, gap, rest, hindent, ?_, ?_, hkey, hchars, hgap, hrest⟩,
        ?_, rfl, rfl⟩
      · simp
      · simp
      · rw [LineForm.text, LineForm.opening, LineForm.keyed, hline, hbody]
        rfl
  · rintro ⟨form, rfl, rfl, rfl⟩
    exact form.split?_text

/-! ### Reading a value -/

/-- An escape without a meaning of its own stands for itself. -/
theorem QuotedUnit.meaning_escape (c : Char) :
    (escape c).meaning = match escapeMeaning? c with
      | some m => [m]
      | none => ['\\', c] := by
  simp only [meaning]
  split
  · rfl
  · rfl
  · rfl
  · rfl
  · rfl
  · simp [escapeMeaning?, *]

theorem unescape?_escaped (c : Char) (cs : List Char) :
    unescape? ('\\' :: c :: cs) = (unescape? cs).map ((QuotedUnit.escape c).meaning ++ ·) := by
  rw [unescape?, QuotedUnit.meaning_escape]
  cases escapeMeaning? c <;> rfl

theorem unescape?_plain {c : Char} (ordinary : c ≠ '"' ∧ c ≠ '\\') (cs : List Char) :
    unescape? (c :: cs) = (unescape? cs).map (c :: ·) := by
  rw [unescape?]
  · exact ordinary.1
  · exact fun h _ => ordinary.2 h
  · exact fun _ _ h _ => ordinary.2 h

/-- A further unit in front of a sequence of units that a quote closes. -/
theorem exists_units_cons (unit : QuotedUnit) {body value : List Char}
    (h : ∃ (units : List QuotedUnit) (behind : List Char),
      body = units.flatMap QuotedUnit.written ++ '"' :: behind ∧
        value = units.flatMap QuotedUnit.meaning) :
    ∃ (units : List QuotedUnit) (behind : List Char),
      unit.written ++ body = units.flatMap QuotedUnit.written ++ '"' :: behind ∧
        unit.meaning ++ value = units.flatMap QuotedUnit.meaning := by
  obtain ⟨units, behind, rfl, rfl⟩ := h
  exact ⟨unit :: units, behind, by simp, by simp⟩

/-- The text up to the closing quote is a sequence of units. -/
theorem unescape?_eq_some_iff (body value : List Char) :
    unescape? body = some value ↔
      ∃ (units : List QuotedUnit) (behind : List Char),
        body = units.flatMap QuotedUnit.written ++ '"' :: behind ∧
          value = units.flatMap QuotedUnit.meaning := by
  constructor
  · intro h
    fun_induction unescape? body generalizing value with
    | case1 => exact absurd h (by simp)
    | case2 cs => exact ⟨[], cs, rfl, by simpa using h.symm⟩
    | case3 => exact absurd h (by simp)
    | case4 c cs m hm ih =>
        obtain ⟨rest, hrest, rfl⟩ := Option.map_eq_some_iff.1 h
        have hunits := exists_units_cons (.escape c) (ih rest hrest)
        rw [QuotedUnit.meaning_escape, hm] at hunits
        exact hunits
    | case5 c cs hm ih =>
        obtain ⟨rest, hrest, rfl⟩ := Option.map_eq_some_iff.1 h
        have hunits := exists_units_cons (.escape c) (ih rest hrest)
        rw [QuotedUnit.meaning_escape, hm] at hunits
        exact hunits
    | case6 c cs hquote hend hslash ih =>
        obtain ⟨rest, hrest, rfl⟩ := Option.map_eq_some_iff.1 h
        have hbackslash : c ≠ '\\' := by
          rintro rfl
          cases cs with
          | nil => exact hend rfl rfl
          | cons d ds => exact hslash d ds rfl rfl
        exact exists_units_cons (.plain c ⟨hquote, hbackslash⟩) (ih rest hrest)
  · rintro ⟨units, behind, rfl, rfl⟩
    induction units with
    | nil => simp [unescape?]
    | cons unit units ih =>
        cases unit with
        | plain c ordinary =>
            simp [QuotedUnit.written, QuotedUnit.meaning, unescape?_plain ordinary, ih]
        | escape c => simp [QuotedUnit.written, unescape?_escaped, ih]

/-- A literal value runs up to the first closing mark. -/
theorem untilQuote?_eq_some_iff (quote : Char) (body value : List Char) :
    untilQuote? quote body = some value ↔
      quote ∉ value ∧ ∃ behind, body = value ++ quote :: behind := by
  constructor
  · intro h
    induction body generalizing value with
    | nil => exact absurd h (by simp [untilQuote?])
    | cons c cs ih =>
        rw [untilQuote?] at h
        split at h
        · next hc => exact ⟨by simp [← Option.some.inj h], cs, by simp [← Option.some.inj h, hc]⟩
        · next hc =>
          obtain ⟨rest, hrest, rfl⟩ := Option.map_eq_some_iff.1 h
          obtain ⟨hfirst, behind, rfl⟩ := ih rest hrest
          have hc' : ¬ quote = c := fun heq => hc heq.symm
          exact ⟨by simp [hc', hfirst], behind, rfl⟩
  · rintro ⟨hfirst, behind, rfl⟩
    induction value with
    | nil => simp [untilQuote?]
    | cons c value ih =>
        rw [List.mem_cons, not_or] at hfirst
        have hc : ¬ c = quote := fun heq => hfirst.1 heq.symm
        simp [untilQuote?, hc, ih hfirst.2]

/-- A bare value runs up to the first hash. -/
theorem beforeHash_iff (raw text : List Char) :
    raw.takeWhile (· ≠ '#') = text ↔ BeforeHash raw text := by
  constructor
  · rintro rfl
    refine ⟨⟨raw.dropWhile (· ≠ '#'), List.takeWhile_append_dropWhile.symm, fun c hc => ?_⟩, ?_⟩
    · simpa using head?_dropWhile_eq_false _ raw c hc
    · intro hmem
      simpa using forall_mem_takeWhile _ raw _ hmem
  · rintro ⟨⟨behind, rfl, hbehind⟩, hfirst⟩
    refine takeWhile_run (fun c hc => ?_) fun c hc => ?_
    · have hne : c ≠ '#' := fun heq => hfirst (heq ▸ hc)
      simpa using hne
    · simpa using hbehind c hc

/-! ### The value of a quoted text -/

/-- Between double quotes escapes are taken out. -/
theorem quotedValue_double_iff (body value : List Char) :
    QuotedValue ('"' :: body) value ↔ unescape? body = some value := by
  rw [unescape?_eq_some_iff]
  constructor
  · intro h
    cases h with
    | double units behind => exact ⟨units, behind, rfl, rfl⟩
    | literal mark first => exact absurd mark (by decide)
  · rintro ⟨units, behind, rfl, rfl⟩
    exact .double units behind

/-- Between other quotes every character stands for itself. -/
theorem quotedValue_literal_iff {quote : Char} (mark : quote = '\'' ∨ quote = '`')
    (body value : List Char) :
    QuotedValue (quote :: body) value ↔ untilQuote? quote body = some value := by
  rw [untilQuote?_eq_some_iff]
  constructor
  · intro h
    cases h with
    | double units behind => exact absurd mark (by decide)
    | literal _ first => exact ⟨first, _, rfl⟩
  · rintro ⟨first, behind, rfl⟩
    exact .literal mark first

/-- A text writes what stands between its quotes if it is quoted, and else its bare value. -/
theorem writes_iff_of_quotedValue_iff {raw : List Char} {found : Option (List Char)}
    (h : ∀ value, QuotedValue raw value ↔ found = some value) (value : List Char) :
    Writes raw value ↔ found.getD (bareValue raw) = value := by
  cases found with
  | some inside =>
      constructor
      · intro hwrites
        cases hwrites with
        | quoted between => exact Option.some.inj ((h value).1 between)
        | bare unquoted => exact absurd ((h inside).2 rfl) (unquoted inside)
      · rintro rfl
        exact .quoted ((h _).2 rfl)
  | none =>
      have hunquoted : ∀ other, ¬ QuotedValue raw other := fun other hother =>
        absurd ((h other).1 hother) (by simp)
      rw [Option.getD_none, bareValue, trim_eq_iff]
      constructor
      · intro hwrites
        cases hwrites with
        | quoted between => exact absurd between (hunquoted value)
        | bare _ before trimmed => exact (beforeHash_iff _ _).2 before ▸ trimmed
      · exact fun trimmed => .bare hunquoted ((beforeHash_iff _ _).1 rfl) trimmed

/-- The value that is read is the one that the text writes. -/
theorem readValue_eq_iff (rest value : List Char) :
    readValue rest = value ↔ ReadsValue rest value := by
  have hraw : ∀ raw, TrimsStart rest raw ↔ raw = trimStart rest := fun raw => by
    rw [← trimStart_eq_iff, eq_comm]
  simp only [ReadsValue, hraw, exists_eq_left, readValue]
  generalize trimStart rest = raw
  split
  · next body => exact (writes_iff_of_quotedValue_iff (quotedValue_double_iff body) value).symm
  · next body =>
    exact (writes_iff_of_quotedValue_iff (quotedValue_literal_iff (.inl rfl) body) value).symm
  · next body =>
    exact (writes_iff_of_quotedValue_iff (quotedValue_literal_iff (.inr rfl) body) value).symm
  · next hdouble hsingle hback =>
    have hunquoted : ∀ value, QuotedValue raw value ↔ none = some value := by
      intro value
      refine ⟨fun h => ?_, fun h => absurd h (by simp)⟩
      cases h with
      | double units behind => exact absurd rfl (hdouble _)
      | literal mark first =>
          rcases mark with rfl | rfl
          · exact absurd rfl (hsingle _)
          · exact absurd rfl (hback _)
    exact (writes_iff_of_quotedValue_iff hunquoted value).symm

/-! ### Reading a line -/

/-- A line is an assignment exactly if it has the form of one. It has one form at most, and the
text behind `=` writes one value. -/
theorem line_forms_exact :
    (∀ (line : String) (a : Assignment), parse? line = some a ↔
        ∃ form : LineForm, form.text = line.toList ∧ form.key = a.key.toList ∧
          ReadsValue form.rest a.value.toList) ∧
      Function.Injective LineForm.text ∧
      ∀ rest, ∃! value, ReadsValue rest value := by
  refine ⟨fun line a => ?_, LineForm.text_injective, fun rest => ?_⟩
  · constructor
    · intro h
      obtain ⟨⟨key, rest⟩, hsplit, rfl⟩ := Option.map_eq_some_iff.1 h
      obtain ⟨form, hform, rfl, rfl⟩ := (split?_eq_some_iff _ _ _).1 hsplit
      refine ⟨form, hform, ?_, ?_⟩
      · rw [String.toList_ofList]
      · rw [String.toList_ofList, ← readValue_eq_iff]
    · rintro ⟨form, hform, hkey, hvalue⟩
      have hread : readValue form.rest = a.value.toList := (readValue_eq_iff _ _).2 hvalue
      simp [parse?, ← hform, form.split?_text, hkey, hread]
  · refine ⟨readValue rest, (readValue_eq_iff _ _).1 rfl, fun value h => ?_⟩
    exact ((readValue_eq_iff _ _).2 h).symm

/-- A key may be named `export`; a quote that is escaped or missing closes nothing. -/
example :
    parse? " export\t=\"a\\\"#b" = some ⟨"export", "\"a\\\""⟩ ∧
      parse? "export export = 'it\\' # x" = some ⟨"export", "it\\"⟩ := by
  decide +kernel

end Assignment

end AnnotatedEnv
