/-
Module: AnnotatedEnv.Proofs.Assignment
Purpose: A written assignment reads back as the same key and the same value.
Main exports: Assignment.IsKey, Assignment.isKey_of_parse?, Assignment.unescape?_escape,
  Assignment.parse?_render
-/
import AnnotatedEnv.Assignment

namespace AnnotatedEnv

open Text

namespace Text

/-! ### Character classes -/

/-- No blank is a word character. -/
theorem isWord_eq_false_of_isBlank {c : Char} (h : isBlank c = true) : isWord c = false := by
  have hall : ∀ code ∈ blankCodes, inRanges wordRanges code = false := by decide +kernel
  exact hall c.toNat (List.contains_iff_mem.1 h)

/-- A key never holds a blank, so trimming in front of a key drops nothing of it. -/
theorem isBlank_eq_false_of_isKeyChar {c : Char} (h : isKeyChar c = true) : isBlank c = false := by
  cases hb : isBlank c with
  | false => rfl
  | true =>
      have hword := isWord_eq_false_of_isBlank hb
      simp only [isKeyChar, hword, Bool.false_or, Bool.or_eq_true, decide_eq_true_eq] at h
      rcases h with rfl | rfl <;> exact absurd hb (by decide)

theorem trimStart_cons_of_not_blank {c : Char} (h : isBlank c = false) (cs : List Char) :
    trimStart (c :: cs) = c :: cs := by
  simp [trimStart, h]

end Text

namespace Assignment

/-! ### Keys -/

/-- The texts that a line can assign to: one or more key characters. -/
structure IsKey (key : String) : Prop where
  nonempty : key.toList ≠ []
  chars : ∀ c ∈ key.toList, isKeyChar c = true

theorem isKeyChar_equals : isKeyChar '=' = false := by decide +kernel

/-- A scan for key characters stops at the equals sign behind the key. -/
theorem takeWhile_key {key : List Char} (hchars : ∀ c ∈ key, isKeyChar c = true)
    (rest : List Char) : (key ++ '=' :: rest).takeWhile isKeyChar = key := by
  rw [List.takeWhile_append_of_pos hchars]
  simp [isKeyChar_equals]

theorem dropWhile_key {key : List Char} (hchars : ∀ c ∈ key, isKeyChar c = true)
    (rest : List Char) : (key ++ '=' :: rest).dropWhile isKeyChar = '=' :: rest := by
  rw [List.dropWhile_append_of_pos hchars]
  simp [isKeyChar_equals]

/-- What `readKeyed?` accepts opens with a key. -/
theorem keyChars_of_readKeyed? {cs key rest : List Char} (h : readKeyed? cs = some (key, rest)) :
    key ≠ [] ∧ ∀ c ∈ key, isKeyChar c = true := by
  simp only [readKeyed?] at h
  split at h
  · exact absurd h (by simp)
  · rename_i k ks _ hk hrest
    split at h
    · exact absurd h (by simp)
    · simp only [Option.some.injEq, Prod.mk.injEq] at h
      rcases h with ⟨hkey, _⟩
      constructor
      · rw [← hkey, hk]
        simp
      · intro c hc
        rw [← hkey] at hc
        exact List.all_eq_true.1 List.all_takeWhile c hc
  · exact absurd h (by simp)

/-- Every key that a line assigns is a key text. -/
theorem isKey_of_parse? {line : String} {a : Assignment} (h : parse? line = some a) :
    IsKey a.key := by
  simp only [parse?, Option.map_eq_some_iff] at h
  obtain ⟨⟨key, rest⟩, hsplit, rfl⟩ := h
  have hread : ∃ cs, readKeyed? cs = some (key, rest) := by
    simp only [split?] at hsplit
    rcases Option.or_eq_some_iff.1 hsplit with hbehind | ⟨_, hplain⟩
    · obtain ⟨cs, _, hcs⟩ := Option.bind_eq_some_iff.1 hbehind
      exact ⟨cs, hcs⟩
    · exact ⟨_, hplain⟩
  rcases hread with ⟨cs, hcs⟩
  obtain ⟨hne, hchars⟩ := keyChars_of_readKeyed? hcs
  exact ⟨by simpa using hne, by simpa using hchars⟩

/-! ### Quoted values -/

/-- No line feed gets past the escaping. -/
theorem newline_not_mem_escapeChar (c : Char) : '\n' ∉ escapeChar c := by
  unfold escapeChar
  split
  · decide
  · decide
  · decide
  · decide
  · decide
  · rename_i hnl _ _
    intro hmem
    exact hnl (List.mem_singleton.1 hmem).symm

/-- Reading up to the closing quote undoes the escapes of writing. -/
theorem unescape?_escape (value rest : List Char) :
    unescape? (value.flatMap escapeChar ++ '"' :: rest) = some value := by
  induction value with
  | nil => simp [unescape?]
  | cons c cs ih =>
      rw [List.flatMap_cons, List.append_assoc]
      generalize hbody : cs.flatMap escapeChar ++ '"' :: rest = body at ih
      unfold escapeChar
      split
      · simp [unescape?, escapeMeaning?, ih]
      · simp [unescape?, escapeMeaning?, ih]
      · simp [unescape?, escapeMeaning?, ih]
      · simp [unescape?, escapeMeaning?, ih]
      · simp [unescape?, escapeMeaning?, ih]
      · rename_i hslash hquote _ _ _
        change unescape? (c :: body) = some (c :: cs)
        unfold unescape?
        split
        · rename_i hnil
          exact absurd hnil (by simp)
        · rename_i heq
          exact absurd (List.cons.inj heq).1 hquote
        · rename_i heq
          exact absurd (List.cons.inj heq).1 hslash
        · rename_i heq
          exact absurd (List.cons.inj heq).1 hslash
        · rename_i heq
          obtain ⟨rfl, rfl⟩ := List.cons.inj heq
          simp [ih]

/-! ### Round trip -/

/-- Behind an opening without `=`, a line `KEY=` goes on with a key character or with `=`. -/
theorem not_blank_of_dropPrefix? {opening key rest behind : List Char} {c : Char}
    (hopening : '=' ∉ opening) (hchars : ∀ c ∈ key, isKeyChar c = true)
    (h : dropPrefix? opening (key ++ '=' :: rest) = some (c :: behind)) : isBlank c = false := by
  induction opening generalizing key with
  | nil =>
      simp only [dropPrefix?, Option.some.injEq] at h
      cases key with
      | nil =>
          obtain ⟨rfl, _⟩ := List.cons.inj h
          decide
      | cons k ks =>
          obtain ⟨rfl, _⟩ := List.cons.inj h
          exact isBlank_eq_false_of_isKeyChar (hchars k (by simp))
  | cons p ps ih =>
      rw [List.mem_cons, not_or] at hopening
      cases key with
      | nil =>
          have hp : p ≠ '=' := fun heq => hopening.1 heq.symm
          simp [dropPrefix?, hp] at h
      | cons k ks =>
          simp only [List.cons_append, dropPrefix?] at h
          split at h
          · exact ih hopening.2 (fun d hd => hchars d (List.mem_cons_of_mem k hd)) h
          · exact absurd h (by simp)

/-- A key is never taken for the word `export` with a blank behind it. -/
theorem afterExport?_key {key : List Char} (hchars : ∀ c ∈ key, isKeyChar c = true)
    (rest : List Char) : afterExport? (key ++ '=' :: rest) = none := by
  unfold afterExport?
  split
  · rename_i c behind hdrop
    simp [not_blank_of_dropPrefix? (by decide) hchars hdrop]
  · rfl

/-- A line `KEY=rest` is split at its first `=`, unless a line feed follows. -/
theorem split?_key_eq {key : List Char} (hne : key ≠ [])
    (hchars : ∀ c ∈ key, isKeyChar c = true) (rest : List Char) :
    split? (key ++ '=' :: rest) = if '\n' ∈ rest then none else some (key, rest) := by
  obtain ⟨k, ks, rfl⟩ := List.exists_cons_of_ne_nil hne
  have hk : isBlank k = false := isBlank_eq_false_of_isKeyChar (hchars k (by simp))
  have htrim : trimStart (k :: ks ++ '=' :: rest) = k :: ks ++ '=' :: rest :=
    trimStart_cons_of_not_blank hk _
  have hequals : trimStart ('=' :: rest) = '=' :: rest :=
    trimStart_cons_of_not_blank (by decide) rest
  have hread : readKeyed? (k :: ks ++ '=' :: rest) =
      if '\n' ∈ rest then none else some (k :: ks, rest) := by
    simp only [readKeyed?, takeWhile_key hchars, dropWhile_key hchars, hequals]
  simp only [split?, htrim, afterExport?_key hchars, hread, Option.bind_none, Option.none_or]

/-- A key, an equals sign and the rest of a line are told apart again. -/
theorem split?_key {key rest : List Char} (hne : key ≠ [])
    (hchars : ∀ c ∈ key, isKeyChar c = true) (hline : '\n' ∉ rest) :
    split? (key ++ '=' :: rest) = some (key, rest) := by
  rw [split?_key_eq hne hchars, if_neg hline]

/-- A quoted line is read as the key and the value that it was written for. -/
theorem parse?_quotedLine {key : String} (hkey : IsKey key) (value : String) :
    parse? (quotedLine key value) = some ⟨key, value⟩ := by
  have hchars : (quotedLine key value).toList =
      key.toList ++ '=' :: '"' :: (value.toList.flatMap escapeChar ++ ['"']) := by
    simp [quotedLine]
  have hline : '\n' ∉ '"' :: (value.toList.flatMap escapeChar ++ ['"']) := by
    have hescaped : '\n' ∉ value.toList.flatMap escapeChar := by
      rw [List.mem_flatMap]
      rintro ⟨c, _, hc⟩
      exact newline_not_mem_escapeChar c hc
    simp [hescaped]
  have hvalue : readValue ('"' :: (value.toList.flatMap escapeChar ++ ['"'])) = value.toList := by
    have hquote : isBlank '"' = false := by decide
    simp only [readValue, trimStart_cons_of_not_blank hquote, unescape?_escape, Option.getD_some]
  simp [parse?, hchars, split?_key hkey.nonempty hkey.chars hline, hvalue]

/-- A written assignment reads back as the same key and the same value, whatever the value. -/
theorem parse?_render {key : String} (hkey : IsKey key) (value : String) :
    parse? (render key value) = some ⟨key, value⟩ := by
  unfold render
  split
  · assumption
  · exact parse?_quotedLine hkey value

end Assignment

end AnnotatedEnv
