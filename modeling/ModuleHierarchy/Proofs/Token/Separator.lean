/-
ModuleHierarchy/Proofs/Token/Separator.lean

Characters that belong to no token.  A separator is a character that is neither a word character
nor a decimal digit nor one of the marks that tokens are spelled with.  Blanks are separators, and
so are quotes, backslashes and the newline.

A lexeme ends in front of the first separator, and what stands from there on has no influence on
it (`next?_append`).  So it depends on the front of the text alone (`next?_congr`), it holds no
separator (`isSeparator_eq_false_of_mem`), and no separator starts one (`next?_eq_none`).
-/
import ModuleHierarchy.Proofs.Text.Solid
import ModuleHierarchy.Proofs.Token.Class

namespace ModuleHierarchy

open Text

variable {prev prev' : Option Char} {c : Char} {s t v w rest : List Char} {l : Lexeme}

namespace Lexeme

/-! ### Separators -/

/-- The characters that spellings are made of, apart from word characters and decimal digits. -/
def marks : List Char :=
  "\x7b\x7d()[].,;:=*/+-<>!&|~#'\x60$".toList

/-- A character that no spelling holds. -/
def isSeparator (c : Char) : Bool :=
  !isWordChar c && !isDecimalDigit c && c ∉ marks

theorem isSeparator_iff :
    isSeparator c = true ↔ isWordChar c = false ∧ isDecimalDigit c = false ∧ c ∉ marks := by
  simp [isSeparator, and_assoc]

section Classes

variable (h : isSeparator c = true)

include h

theorem isWordChar_eq_false : isWordChar c = false :=
  (isSeparator_iff.1 h).1

theorem isDecimalDigit_eq_false : isDecimalDigit c = false :=
  (isSeparator_iff.1 h).2.1

theorem notMem_marks : c ∉ marks :=
  (isSeparator_iff.1 h).2.2

theorem ne_of_mem_marks {d : Char} (hd : d ∈ marks) : c ≠ d := by
  rintro rfl
  exact notMem_marks h hd

/-- A class of word characters has no separator. -/
theorem eq_false_of_isWordChar {p : Char → Bool} (hp : p c = true → isWordChar c = true) :
    p c = false := by
  rw [Bool.eq_false_iff]
  intro hc
  exact absurd (hp hc) (Bool.eq_false_iff.1 (isWordChar_eq_false h))

theorem isNameChar_eq_false : isNameChar c = false :=
  eq_false_of_isWordChar h fun hc =>
    isWordChar_of_isNameChar hc (ne_of_mem_marks h (by decide))

theorem isNameStart_eq_false : isNameStart c = false :=
  eq_false_of_isWordChar h fun hc =>
    isWordChar_of_isNameChar (isNameChar_of_isNameStart hc) (ne_of_mem_marks h (by decide))

theorem isBaseLetter_eq_false : isBaseLetter c = false :=
  eq_false_of_isWordChar h isWordChar_of_isBaseLetter

theorem isValueChar_eq_false : isValueChar c = false :=
  eq_false_of_isWordChar h isWordChar_of_isValueChar

end Classes

theorem isSeparator_of_isBlank (h : isBlank c = true) : isSeparator c = true := by
  have hblanks : (blankCodes.map Char.ofNat).all (fun b => !!isSeparator b) = true := by
    decide +kernel
  cases hc : isSeparator c with
  | true => rfl
  | false =>
    -- the characters that are no separators are a class without a blank member
    have hnot := isBlank_eq_false_of_class hblanks (congrArg not hc)
    rw [hnot] at h
    cases h

/-- What follows a spelling without being a part of it: nothing, or a separator first. -/
def Stops (rest : List Char) : Prop :=
  ∀ c ∈ rest.head?, isSeparator c = true

theorem stops_cons (hc : isSeparator c = true) (s : List Char) : Stops (c :: s) := by
  intro d hd
  obtain rfl := Option.some.inj hd
  exact hc

theorem Stops.head?_any (h : Stops rest) {p : Char → Bool}
    (hp : ∀ {c}, isSeparator c = true → p c = false) : rest.head?.any p = false := by
  cases rest with
  | nil => rfl
  | cons c rest => exact hp (h c rfl)

theorem Stops.head?_append_any (h : Stops rest) {p : Char → Bool}
    (hp : ∀ {c}, isSeparator c = true → p c = false) (w : List Char) :
    (w ++ rest).head?.any p = w.head?.any p := by
  cases w with
  | nil => exact h.head?_any hp
  | cons c w => rfl

theorem Stops.head?_append_filter (h : Stops rest) {p : Char → Bool}
    (hp : ∀ {c}, isSeparator c = true → p c = false) (w : List Char) :
    (w ++ rest).head?.filter p = w.head?.filter p := by
  cases w with
  | nil =>
    cases rest with
    | nil => rfl
    | cons c rest => exact Option.filter_some_neg (hp (h c rfl))
  | cons c w => rfl

/-! ### What stands behind a lexeme -/

theorem paramOpen?_eq_ite (s : List Char) :
    paramOpen? s = if ['#', '('].isPrefixOf s then some ['#', '('] else none := by
  unfold paramOpen?
  split
  · rfl
  · next h =>
    rw [if_neg]
    intro hprefix
    obtain ⟨t, rfl⟩ := List.isPrefixOf_iff_prefix.1 hprefix
    exact h t rfl

theorem ident?_eq_none_iff : ident? (c :: s) = none ↔ isNameStart c = false := by
  cases hc : isNameStart c <;> simp [ident?, hc]

theorem baseAndValue?_eq_none (hc : isBaseLetter c = false) : baseAndValue? (c :: s) = none := by
  simp [baseAndValue?, hc]

theorem sizedTail?_of_ne (hc : c ≠ '\x27') (s : List Char) :
    sizedTail? (c :: s) = baseAndValue? (c :: s) := by
  rw [sizedTail?]
  rintro t hcs
  exact hc (List.cons.inj hcs).1

theorem marked?_apostrophe (s : List Char) :
    marked? ('\x27' :: s) = (s.head?.filter isWordChar).map fun c => ['\x27', c] := by
  cases s with
  | nil => rfl
  | cons c s =>
    rw [marked?, List.head?_cons, Option.filter_some]
    split <;> rfl

theorem marked?_backtick (s : List Char) :
    marked? ('\x60' :: s) =
      if s.head?.any isWordChar then some ('\x60' :: s.takeWhile isWordChar) else none := rfl

theorem marked?_eq_none (hquote : c ≠ '\x27') (htick : c ≠ '\x60') : marked? (c :: s) = none := by
  unfold marked?
  split
  · next h => exact absurd (List.cons.inj h).1 hquote
  · next h => exact absurd (List.cons.inj h).1 htick
  · rfl

section Append

variable (hrest : Stops rest)

include hrest

theorem Stops.takeWhile_append {p : Char → Bool} (hp : ∀ {c}, isSeparator c = true → p c = false)
    (w : List Char) : (w ++ rest).takeWhile p = w.takeWhile p :=
  takeWhile_append_of_head? (hrest.head?_any hp) w

/-- A text without separators that another text starts with ends in front of the first one. -/
theorem Stops.isPrefixOf_append (hv : v.all (fun c => !isSeparator c) = true) (w : List Char) :
    v.isPrefixOf (w ++ rest) = v.isPrefixOf w := by
  induction v generalizing w with
  | nil => rfl
  | cons c v ih =>
    rw [List.all_cons, Bool.and_eq_true, Bool.not_eq_true'] at hv
    cases w with
    | cons d w => exact congrArg ((c == d) && ·) (ih hv.2 w)
    | nil =>
      cases rest with
      | nil => rfl
      | cons d rest =>
        have hne : c ≠ d := by
          rintro rfl
          rw [hrest c rfl] at hv
          exact absurd hv.1 Bool.noConfusion
        show ((c == d) && v.isPrefixOf rest) = false
        rw [beq_eq_false_iff_ne.2 hne, Bool.false_and]

/-- A function that takes nothing from the empty text and nothing from one that starts with a
separator takes the same with `rest` behind a text, if it does so behind texts with a character. -/
theorem Stops.append_eq {f : List Char → Option (List Char)} (hnil : f [] = none)
    (hsep : ∀ c s, isSeparator c = true → f (c :: s) = none)
    (hcons : ∀ c w, f (c :: (w ++ rest)) = f (c :: w)) (w : List Char) : f (w ++ rest) = f w := by
  cases w with
  | cons c w => exact hcons c w
  | nil =>
    cases rest with
    | nil => rfl
    | cons c rest => exact (hsep c rest (hrest c rfl)).trans hnil.symm

theorem keyword?_append (prev : Option Char) (w : List Char) :
    keyword? prev (w ++ rest) = keyword? prev w := by
  cases hprev : prev.any isWordChar with
  | true => rw [keyword?, keyword?, tableWord?, tableWord?, if_pos hprev, if_pos hprev]
  | false =>
    rw [keyword?_eq_ite hprev, keyword?_eq_ite hprev, hrest.takeWhile_append isWordChar_eq_false]

theorem paramOpen?_append (w : List Char) : paramOpen? (w ++ rest) = paramOpen? w := by
  rw [paramOpen?_eq_ite, paramOpen?_eq_ite, hrest.isPrefixOf_append (by decide)]

theorem ident?_append (w : List Char) : ident? (w ++ rest) = ident? w := by
  refine hrest.append_eq rfl ?_ ?_ w
  · intro c s hc
    exact ident?_eq_none_iff.2 (isNameStart_eq_false hc)
  · intro c w
    rw [ident?, ident?, hrest.takeWhile_append isNameChar_eq_false]

theorem baseAndValue?_append (w : List Char) : baseAndValue? (w ++ rest) = baseAndValue? w := by
  refine hrest.append_eq rfl ?_ ?_ w
  · intro c s hc
    exact baseAndValue?_eq_none (isBaseLetter_eq_false hc)
  · intro c w
    rw [baseAndValue?, baseAndValue?, hrest.head?_append_any isValueChar_eq_false,
      hrest.takeWhile_append isValueChar_eq_false]

theorem sizedTail?_append (w : List Char) : sizedTail? (w ++ rest) = sizedTail? w := by
  refine hrest.append_eq rfl ?_ ?_ w
  · intro c s hc
    rw [sizedTail?_of_ne (ne_of_mem_marks hc (by decide))]
    exact baseAndValue?_eq_none (isBaseLetter_eq_false hc)
  · intro c w
    by_cases hc : c = '\x27'
    · subst hc
      show (baseAndValue? (w ++ rest)).map _ = (baseAndValue? w).map _
      rw [baseAndValue?_append hrest]
    · rw [sizedTail?_of_ne hc, sizedTail?_of_ne hc]
      exact baseAndValue?_append hrest (c :: w)

theorem number?_append (w : List Char) : number? (w ++ rest) = number? w := by
  have hdigit := hrest.head?_any isDecimalDigit_eq_false
  rw [number?, number?, takeWhile_append_of_head? hdigit, dropWhile_append_of_head? hdigit,
    sizedTail?_append hrest]

theorem marked?_append (w : List Char) : marked? (w ++ rest) = marked? w := by
  refine hrest.append_eq rfl ?_ ?_ w
  · intro c s hc
    exact marked?_eq_none (ne_of_mem_marks hc (by decide)) (ne_of_mem_marks hc (by decide))
  · intro c w
    by_cases hquote : c = '\x27'
    · subst hquote
      rw [marked?_apostrophe, marked?_apostrophe, hrest.head?_append_filter isWordChar_eq_false]
    by_cases htick : c = '\x60'
    · subst htick
      rw [marked?_backtick, marked?_backtick, hrest.head?_append_any isWordChar_eq_false,
        hrest.takeWhile_append isWordChar_eq_false]
    rw [marked?_eq_none hquote htick, marked?_eq_none hquote htick]

theorem operators_find?_append (w : List Char) :
    operators.find? (·.isPrefixOf (w ++ rest)) = operators.find? (·.isPrefixOf w) := by
  have hops : ∀ v ∈ operators, v.all (fun c => !isSeparator c) = true := by decide
  exact List.find?_congr fun v hv => hrest.isPrefixOf_append (hops v hv) w

theorem symbol?_append (w : List Char) : symbol? (w ++ rest) = symbol? w := by
  refine hrest.append_eq rfl ?_ ?_ w
  · intro c s hc
    have hmarks : punctuation.all (· ∈ marks) = true := by decide
    have hnot : c ∉ punctuation := fun hmem =>
      notMem_marks hc (of_decide_eq_true (List.all_eq_true.1 hmarks c hmem))
    have hfind := operators_find?_append (stops_cons hc s) []
    rw [List.nil_append] at hfind
    rw [symbol?, if_neg hnot, hfind,
      marked?_eq_none (ne_of_mem_marks hc (by decide)) (ne_of_mem_marks hc (by decide))]
    rfl
  · intro c w
    rw [symbol?, symbol?, ← List.cons_append, operators_find?_append hrest, marked?_append hrest]

/-- What stands from the first separator on has no influence on a lexeme. -/
theorem next?_append (prev : Option Char) (w : List Char) :
    next? prev (w ++ rest) = next? prev w := by
  rw [next?, next?, keyword?_append hrest, paramOpen?_append hrest, ident?_append hrest,
    number?_append hrest, symbol?_append hrest]

end Append

/-! ### The front of a text -/

/-- What stands in front of the first separator. -/
def front (s : List Char) : List Char :=
  s.takeWhile fun c => !isSeparator c

theorem front_cons (h : isSeparator c = true) : front (c :: s) = [] :=
  List.takeWhile_cons_of_neg (by simp [h])

theorem next?_front (prev : Option Char) (s : List Char) : next? prev (front s) = next? prev s := by
  have hrest : Stops (s.dropWhile fun c => !isSeparator c) := by
    intro c hc
    have hnot := List.head?_dropWhile_not (fun c => !isSeparator c) s
    rw [Option.mem_def.1 hc] at hnot
    simpa using hnot
  have happend := next?_append hrest prev (front s)
  rw [front, List.takeWhile_append_dropWhile] at happend
  exact happend.symm

/-- A lexeme depends on the front of the text, and on whether it stands behind a word character. -/
theorem next?_congr (hprev : prev.any isWordChar = prev'.any isWordChar)
    (hfront : front s = front t) : next? prev s = next? prev' t := by
  have hkeyword (u : List Char) : keyword? prev u = keyword? prev' u := by
    rw [keyword?, keyword?, tableWord?, tableWord?, hprev]
  rw [← next?_front prev s, ← next?_front prev' t, hfront, next?, next?, hkeyword]

/-- No separator starts a lexeme. -/
theorem next?_eq_none (hc : isSeparator c = true) : next? prev (c :: s) = none := by
  rw [← next?_front, front_cons hc]
  cases h : next? prev [] with
  | none => rfl
  | some l => exact absurd (List.prefix_nil.1 (next?_isPrefix h)) (next?_ne_nil h)

/-- No lexeme holds a separator. -/
theorem isSeparator_eq_false_of_mem (h : next? prev s = some l) (hc : c ∈ l.spelling) :
    isSeparator c = false := by
  rw [← next?_front] at h
  have hmem := (next?_isPrefix h).subset hc
  have hnot := List.mem_takeWhile_imp hmem
  simpa using hnot

end Lexeme

end ModuleHierarchy
