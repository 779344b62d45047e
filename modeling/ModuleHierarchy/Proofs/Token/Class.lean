/-
ModuleHierarchy/Proofs/Token/Class.lean

The classes of characters that spellings are made of, and how they lie to each other.  The
characters of names, base letters and values are word characters, except for the dollar sign.

The word of a table at the front of a text is the whole run of word characters there, if that is one
of its words (`tableWord?_eq_ite`), and reserved words are found by their table (`keyword?_eq_ite`).
-/
import Mathlib.Data.List.Find
import Mathlib.Data.List.TakeWhile
import ModuleHierarchy.Token.Prefix

namespace ModuleHierarchy.Lexeme

open Text

variable {prev : Option Char} {c : Char} {s t w rest : List Char}

/-! ### Classes of characters -/

/-- A run of characters of a class does not go on where a character of another class follows. -/
theorem takeWhile_append_of_head? {p : Char → Bool} (hrest : rest.head?.any p = false)
    (w : List Char) : (w ++ rest).takeWhile p = w.takeWhile p := by
  induction w with
  | nil =>
    cases rest with
    | nil => rfl
    | cons c rest => exact List.takeWhile_cons_of_neg (Bool.eq_false_iff.1 hrest)
  | cons c w ih => rw [List.cons_append, List.takeWhile_cons, List.takeWhile_cons, ih]

theorem dropWhile_append_of_head? {p : Char → Bool} (hrest : rest.head?.any p = false)
    (w : List Char) : (w ++ rest).dropWhile p = w.dropWhile p ++ rest := by
  induction w with
  | nil =>
    cases rest with
    | nil => rfl
    | cons c rest => exact List.dropWhile_cons_of_neg (Bool.eq_false_iff.1 hrest)
  | cons c w ih =>
    rw [List.cons_append, List.dropWhile_cons, List.dropWhile_cons, ih]
    split <;> rfl

theorem takeWhile_append_stop {p : Char → Bool} (hw : w.all p = true)
    (hrest : rest.head?.any p = false) : (w ++ rest).takeWhile p = w := by
  rw [takeWhile_append_of_head? hrest, List.takeWhile_eq_self_iff]
  exact List.all_eq_true.1 hw

theorem dropWhile_append_stop {p : Char → Bool} (hw : w.all p = true)
    (hrest : rest.head?.any p = false) : (w ++ rest).dropWhile p = rest := by
  rw [dropWhile_append_of_head? hrest, List.dropWhile_eq_nil_iff.2 (List.all_eq_true.1 hw),
    List.nil_append]

/-- Behind a whole run of characters of a class no further one follows. -/
theorem head?_any_of_takeWhile_append {p : Char → Bool} (h : (w ++ rest).takeWhile p = w) :
    rest.head?.any p = false := by
  cases rest with
  | nil => rfl
  | cons c rest =>
    rw [List.head?_cons, Option.any_some, Bool.eq_false_iff]
    intro hc
    have hw : ∀ d ∈ w, p d = true := fun d hd => List.mem_takeWhile_imp (h.symm ▸ hd)
    rw [List.takeWhile_append_of_pos hw, List.takeWhile_cons_of_pos hc] at h
    exact List.cons_ne_nil _ _ (List.append_right_eq_self.1 h)

/-- Behind a mark and the whole run of a class, no further character of the class follows. -/
theorem head?_any_of_run {p : Char → Bool} (hw : w = c :: t.takeWhile p) (hs : w ++ rest = c :: t) :
    rest.head?.any p = false := by
  rw [hw, List.cons_append] at hs
  exact head?_any_of_takeWhile_append (congrArg _ (List.cons.inj hs).2)

theorem takeWhile_ne_nil {p : Char → Bool} (hs : s.head?.any p = true) : s.takeWhile p ≠ [] := by
  obtain ⟨c, hc, hp⟩ := (Option.any_eq_true _ _).1 hs
  obtain ⟨t, rfl⟩ := List.head?_eq_some_iff.1 hc
  rw [List.takeWhile_cons_of_pos hp]
  exact List.cons_ne_nil _ _

theorem isAlpha_iff_toNat :
    c.isAlpha = true ↔ (65 ≤ c.toNat ∧ c.toNat ≤ 90) ∨ (97 ≤ c.toNat ∧ c.toNat ≤ 122) := by
  have hcodes : c.isAlpha = (decide (65 ≤ c.toNat ∧ c.toNat ≤ 90) ||
      (decide (97 ≤ c.toNat) && decide (c.toNat ≤ 122))) := rfl
  simp only [hcodes, Bool.or_eq_true, Bool.and_eq_true, decide_eq_true_eq]

theorem isWordChar_of_isAlphanum (h : c.isAlphanum = true) : isWordChar c = true := by
  have hascii : c.toNat < 128 := by
    rw [Char.isAlphanum, Bool.or_eq_true, isAlpha_iff_toNat] at h
    rcases h with halpha | hdigit
    · omega
    · exact Nat.lt_of_le_of_lt (Char.isDigit_iff_toNat.1 hdigit).2 (by decide)
  rw [isWordChar, if_pos hascii, h, Bool.true_or]

theorem isNameChar_of_isNameStart (h : isNameStart c = true) : isNameChar c = true := by
  simp only [isNameStart, Bool.or_eq_true] at h
  simp only [isNameChar, Char.isAlphanum, Bool.or_eq_true]
  exact .inl (h.imp .inl id)

theorem all_isNameChar_cons (hc : isNameStart c = true) (hs : s.all isNameChar = true) :
    (c :: s).all isNameChar = true := by
  rw [List.all_cons, isNameChar_of_isNameStart hc, hs, Bool.true_and]

/-- The characters of a name, other than the dollar sign, are word characters. -/
theorem isWordChar_of_isNameChar (h : isNameChar c = true) (hc : c ≠ '$') :
    isWordChar c = true := by
  simp only [isNameChar, Bool.or_eq_true, beq_iff_eq] at h
  rcases h with (halnum | rfl) | hdollar
  · exact isWordChar_of_isAlphanum halnum
  · decide
  · exact absurd hdollar hc

/-- Among ASCII characters, word characters are characters of names. -/
theorem isNameChar_of_isWordChar (h : isWordChar c = true) (hc : c.toNat < 128) :
    isNameChar c = true := by
  rw [isWordChar, if_pos hc] at h
  rw [isNameChar, h, Bool.true_or]

theorem isWordChar_of_isBaseLetter (h : isBaseLetter c = true) : isWordChar c = true := by
  have hletters : ['b', 'd', 'h', 'B', 'D', 'H'].all isWordChar = true := by decide
  exact List.all_eq_true.1 hletters c (of_decide_eq_true h)

theorem isWordChar_of_isValueChar (h : isValueChar c = true) : isWordChar c = true := by
  simp only [isValueChar, Bool.or_eq_true, Bool.and_eq_true, decide_eq_true_eq, beq_iff_eq] at h
  rcases h with ((hdigit | hlower) | hupper) | rfl
  · exact isWordChar_of_isAlphanum (by rw [Char.isAlphanum, hdigit, Bool.or_true])
  · have hcode : 97 ≤ c.toNat ∧ c.toNat ≤ 102 := hlower
    have halpha : c.isAlpha = true := isAlpha_iff_toNat.2 (by omega)
    exact isWordChar_of_isAlphanum (by rw [Char.isAlphanum, halpha, Bool.true_or])
  · have hcode : 65 ≤ c.toNat ∧ c.toNat ≤ 70 := hupper
    have halpha : c.isAlpha = true := isAlpha_iff_toNat.2 (by omega)
    exact isWordChar_of_isAlphanum (by rw [Char.isAlphanum, halpha, Bool.true_or])
  · decide

theorem isNameStart_eq_false_of_isDecimalDigit (h : isDecimalDigit c = true) :
    isNameStart c = false := by
  rw [Bool.eq_false_iff]
  intro hstart
  simp only [isNameStart, Bool.or_eq_true, beq_iff_eq] at hstart
  rcases hstart with halpha | rfl
  · rw [isAlpha_iff_toNat] at halpha
    rw [isDecimalDigit, if_pos (by omega)] at h
    have hdigit : c.toNat ≤ 57 := (Char.isDigit_iff_toNat.1 h).2
    omega
  · exact absurd h (by decide)

theorem isDecimalDigit_eq_false_of_isBaseLetter (h : isBaseLetter c = true) :
    isDecimalDigit c = false := by
  have hletters : ['b', 'd', 'h', 'B', 'D', 'H'].all (fun d => !isDecimalDigit d) = true := by
    decide
  have hc := List.all_eq_true.1 hletters c (of_decide_eq_true h)
  rwa [Bool.not_eq_true'] at hc

/-! ### Reserved words -/

/-- A word of word characters is taken if and only if it is the whole run of them. -/
theorem isPrefixOf_and_stop_iff (hw : w.all isWordChar = true) :
    (w.isPrefixOf s && !(s.drop w.length).head?.any isWordChar) = true ↔
      s.takeWhile isWordChar = w := by
  rw [Bool.and_eq_true, List.isPrefixOf_iff_prefix, Bool.not_eq_true']
  constructor
  · rintro ⟨⟨r, rfl⟩, hstop⟩
    rw [List.drop_left] at hstop
    exact takeWhile_append_stop hw hstop
  · rintro rfl
    refine ⟨List.takeWhile_prefix _, ?_⟩
    have hdrop : (s.takeWhile isWordChar ++ s.dropWhile isWordChar).drop
        (s.takeWhile isWordChar).length = s.dropWhile isWordChar := List.drop_left
    rw [List.takeWhile_append_dropWhile] at hdrop
    rw [hdrop]
    have hnot := List.head?_dropWhile_not isWordChar s
    cases hs : s.dropWhile isWordChar with
    | nil => rfl
    | cons d r => simpa [hs] using hnot

theorem all_isWordChar_of_mem (hw : w ∈ keywords) : w.all isWordChar = true := by
  have hwords : ∀ v ∈ keywords, v.all isWordChar = true := by decide
  exact hwords w hw

theorem exists_cons_of_mem_keywords (hw : w ∈ keywords) :
    ∃ c v, w = c :: v ∧ isNameStart c = true := by
  have hstarts : ∀ v ∈ keywords, v.head?.any isNameStart = true := by decide
  obtain ⟨c, hc, hstart⟩ := (Option.any_eq_true _ _).1 (hstarts w hw)
  obtain ⟨v, rfl⟩ := List.head?_eq_some_iff.1 hc
  exact ⟨c, v, rfl, hstart⟩

/-- Not behind a word character, the word of a table at the front of a text is the whole run of word
characters there, if that is a word of the table. -/
theorem tableWord?_eq_ite {table : List (List Char)}
    (htable : ∀ v ∈ table, v.all isWordChar = true) (hprev : prev.any isWordChar = false) :
    tableWord? table prev s =
      if s.takeWhile isWordChar ∈ table then some (s.takeWhile isWordChar) else none := by
  rw [tableWord?, if_neg (by simp [hprev])]
  split
  · next hmem =>
    cases hfind : table.find? _ with
    | none =>
      -- the run itself passes the test, so the search finds something
      have hall := List.find?_eq_none.1 hfind _ hmem
      exact absurd ((isPrefixOf_and_stop_iff (htable _ hmem)).2 rfl) hall
    | some w =>
      have hw := List.find?_some hfind
      have hword := htable w (List.mem_of_find?_eq_some hfind)
      rw [(isPrefixOf_and_stop_iff hword).1 hw]
  · next hmem =>
    refine List.find?_eq_none.2 fun w hw hfits => hmem ?_
    rwa [(isPrefixOf_and_stop_iff (htable w hw)).1 hfits]

theorem tableWord?_eq_some_iff {table : List (List Char)}
    (htable : ∀ v ∈ table, v.all isWordChar = true) :
    tableWord? table prev s = some w ↔
      prev.any isWordChar = false ∧ w ∈ table ∧ s.takeWhile isWordChar = w := by
  cases hprev : prev.any isWordChar with
  | true => simp [tableWord?, hprev]
  | false =>
    rw [tableWord?_eq_ite htable hprev]
    split
    · next hmem =>
      rw [Option.some.injEq]
      constructor
      · rintro rfl
        exact ⟨rfl, hmem, rfl⟩
      · rintro ⟨-, -, hw⟩
        exact hw
    · next hmem =>
      refine iff_of_false (fun h => by cases h) ?_
      rintro ⟨-, hw, rfl⟩
      exact hmem hw

theorem keyword?_eq_ite (hprev : prev.any isWordChar = false) :
    keyword? prev s =
      if s.takeWhile isWordChar ∈ keywords then some (s.takeWhile isWordChar) else none :=
  tableWord?_eq_ite (fun _ => all_isWordChar_of_mem) hprev

theorem keyword?_eq_some_iff :
    keyword? prev s = some w ↔
      prev.any isWordChar = false ∧ w ∈ keywords ∧ s.takeWhile isWordChar = w :=
  tableWord?_eq_some_iff fun _ => all_isWordChar_of_mem

end ModuleHierarchy.Lexeme
