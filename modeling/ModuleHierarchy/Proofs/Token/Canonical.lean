/-
ModuleHierarchy/Proofs/Token/Canonical.lean

Canonical spellings and how they are read.  `Canonical` is the grammar of the five kinds of
tokens, written without the functions that look for them.  Its point is `Canonical.next?_append`:
in front of a blank or of the end of the text, and not behind a word character, a canonical
spelling is read as one lexeme of its kind.

Kinds are tried one after the other, so for each kind that is tried earlier a lemma says why it
does not answer.  Most kinds are told apart by the first character.  A reserved word and an
identifier start alike, and here it counts that a reserved word is the whole run of word
characters at the front of the text (`keyword?_eq_ite`).
-/
import ModuleHierarchy.Proofs.Token.Separator

namespace ModuleHierarchy.Lexeme

open Text

variable {prev : Option Char} {c : Char} {s w rest : List Char} {k : Token.Kind}

/-! ### The grammar -/

/-- The spellings of each kind of token that are read back when they stand between blanks. -/
inductive Canonical : Token.Kind → List Char → Prop
  | keyword {w : List Char} (hw : w ∈ keywords) : Canonical .keyword w
  | paramOpen : Canonical .paramOpen ['#', '(']
  /-- What stands in front of the first dollar sign is no reserved word. -/
  | ident {c : Char} {s : List Char} (hc : isNameStart c = true) (hs : s.all isNameChar = true)
      (hw : (c :: s).takeWhile (· ≠ '$') ∉ keywords) : Canonical .ident (c :: s)
  | plainNumber {ds : List Char} (hne : ds ≠ []) (hds : ds.all isDecimalDigit = true) :
      Canonical .number ds
  /-- Digits, an apostrophe that may be missing, a base letter and a value. -/
  | sizedNumber {ds mark value : List Char} {base : Char} (hne : ds ≠ [])
      (hds : ds.all isDecimalDigit = true) (hmark : mark = [] ∨ mark = ['\x27'])
      (hbase : isBaseLetter base = true) (hvalue : value ≠ [])
      (hvalues : value.all isValueChar = true) :
      Canonical .number (ds ++ (mark ++ base :: value))
  | punctuation {c : Char} (hc : c ∈ punctuation) : Canonical .symbol [c]
  | operator {w : List Char} (hw : w ∈ operators) (hne : w ≠ ['=', '=']) : Canonical .symbol w
  | quoted {c : Char} (hc : isWordChar c = true) : Canonical .symbol ['\x27', c]
  | directive {s : List Char} (hne : s ≠ []) (hs : s.all isWordChar = true) :
      Canonical .symbol ('\x60' :: s)

/-- What may stand behind a spelling: nothing, or a blank. -/
def Ends (rest : List Char) : Prop :=
  ∀ c ∈ rest.head?, c = ' '

theorem Ends.stops (h : Ends rest) : Stops rest := by
  intro c hc
  rw [h c hc]
  decide

/-! ### Kinds that do not answer -/

theorem keyword?_eq_none (hc : isNameStart c = false) : keyword? prev (c :: s) = none := by
  rw [Option.eq_none_iff_forall_ne_some]
  intro w hw
  obtain ⟨hmem, t, ht⟩ := tableWord?_eq_some hw
  obtain ⟨d, v, rfl, hstart⟩ := exists_cons_of_mem_keywords hmem
  obtain ⟨rfl, -⟩ := List.cons.inj ht
  rw [hc] at hstart
  cases hstart

theorem paramOpen?_eq_none (hc : c ≠ '#') : paramOpen? (c :: s) = none := by
  rw [paramOpen?]
  rintro t hcs
  exact hc (List.cons.inj hcs).1

theorem number?_eq_none_iff : number? (c :: s) = none ↔ isDecimalDigit c = false := by
  cases hc : isDecimalDigit c <;> simp [number?, hc]

theorem next?_eq_number? (hc : isDecimalDigit c = true) (h : number? (c :: s) = some w) :
    next? prev (c :: s) = some ⟨.number, w⟩ := by
  have hstart := isNameStart_eq_false_of_isDecimalDigit hc
  have hopen : c ≠ '#' := by
    rintro rfl
    exact absurd hc (by decide)
  rw [next?, keyword?_eq_none hstart, paramOpen?_eq_none hopen, ident?_eq_none_iff.2 hstart, h]
  rfl

/-- Whether none of the other kinds of tokens starts with the character. -/
def startsNoOther (c : Char) : Bool :=
  !isNameStart c && c != '#' && !isDecimalDigit c

theorem next?_eq_symbol? (hc : startsNoOther c = true) :
    next? prev (c :: s) = (symbol? (c :: s)).map (⟨.symbol, ·⟩) := by
  simp only [startsNoOther, Bool.and_eq_true, Bool.not_eq_true', bne_iff_ne, ne_eq] at hc
  obtain ⟨⟨hstart, hopen⟩, hdigit⟩ := hc
  rw [next?, keyword?_eq_none hstart, paramOpen?_eq_none hopen, ident?_eq_none_iff.2 hstart,
    number?_eq_none_iff.2 hdigit]
  rfl

/-! ### Each kind -/

theorem keyword?_self (hw : w ∈ keywords) (hprev : prev.any isWordChar = false) :
    keyword? prev w = some w := by
  have hrun : w.takeWhile isWordChar = w :=
    List.takeWhile_eq_self_iff.2 (List.all_eq_true.1 (all_isWordChar_of_mem hw))
  rw [keyword?_eq_ite hprev, hrun, if_pos hw]

/-- The word characters at the front of an identifier are those in front of its first dollar
sign. -/
theorem takeWhile_isWordChar_name (hs : s.all isNameChar = true) :
    s.takeWhile isWordChar = s.takeWhile (· ≠ '$') := by
  induction s with
  | nil => rfl
  | cons d s ih =>
    rw [List.all_cons, Bool.and_eq_true] at hs
    by_cases hd : d = '$'
    · subst hd
      simp [show isWordChar '$' = false by decide]
    · rw [List.takeWhile_cons_of_pos (isWordChar_of_isNameChar hs.1 hd),
        List.takeWhile_cons_of_pos (by simpa using hd), ih hs.2]

theorem ident?_self (hc : isNameStart c = true) (hs : s.all isNameChar = true) :
    ident? (c :: s) = some (c :: s) := by
  rw [ident?, if_pos hc, List.takeWhile_eq_self_iff.2 (List.all_eq_true.1 hs)]

/-- Behind a base letter the whole run of characters of a value is taken. -/
theorem sizedTail?_mark_append {mark : List Char} (hmark : mark = [] ∨ mark = ['\x27'])
    (hc : isBaseLetter c = true) (hs : s.head?.any isValueChar = true) :
    sizedTail? (mark ++ c :: s) = some (mark ++ c :: s.takeWhile isValueChar) := by
  have hbase : baseAndValue? (c :: s) = some (c :: s.takeWhile isValueChar) := by
    rw [baseAndValue?, hc, hs, Bool.true_and, if_pos rfl]
  rcases hmark with rfl | rfl
  · have hapostrophe : c ≠ '\x27' := by
      rintro rfl
      exact absurd hc (by decide)
    rw [List.nil_append, sizedTail?_of_ne hapostrophe, hbase, List.nil_append]
  · show (baseAndValue? (c :: s)).map _ = _
    rw [hbase]
    rfl

theorem sizedTail?_self {mark value : List Char} (hmark : mark = [] ∨ mark = ['\x27'])
    (hc : isBaseLetter c = true) (hvalue : value ≠ [])
    (hvalues : value.all isValueChar = true) :
    sizedTail? (mark ++ c :: value) = some (mark ++ c :: value) := by
  have hhead : value.head?.any isValueChar = true := by
    obtain ⟨d, value, rfl⟩ := List.exists_cons_of_ne_nil hvalue
    exact List.all_eq_true.1 hvalues d List.mem_cons_self
  rw [sizedTail?_mark_append hmark hc hhead,
    List.takeWhile_eq_self_iff.2 (List.all_eq_true.1 hvalues)]

theorem number?_digits_append {ds t : List Char} (hne : ds ≠ [])
    (hds : ds.all isDecimalDigit = true) (ht : t.head?.any isDecimalDigit = false) :
    number? (ds ++ t) = some (ds ++ (sizedTail? t).getD []) := by
  rw [number?, takeWhile_append_stop hds ht, dropWhile_append_stop hds ht]
  obtain ⟨d, ds, rfl⟩ := List.exists_cons_of_ne_nil hne
  rfl

theorem symbol?_punctuation (hc : c ∈ punctuation) : symbol? (c :: s) = some [c] := by
  rw [symbol?, if_pos hc]

theorem symbol?_operator (hw : w ∈ operators) (hne : w ≠ ['=', '=']) : symbol? w = some w := by
  have hall : ∀ v ∈ operators, v ≠ ['=', '='] → symbol? v = some v := by decide
  exact hall w hw hne

theorem symbol?_eq_marked? (hc : c ∉ punctuation) (hops : ∀ v ∈ operators, v.head? ≠ some c) :
    symbol? (c :: s) = marked? (c :: s) := by
  have hnone : operators.find? (·.isPrefixOf (c :: s)) = none := by
    refine List.find?_eq_none.2 fun v hv hprefix => hops v hv ?_
    rw [List.isPrefixOf_iff_prefix] at hprefix
    cases v with
    | nil => exact absurd hv (by decide)
    | cons d v => rw [(List.cons_prefix_cons.1 hprefix).1, List.head?_cons]
  rw [symbol?, if_neg hc, hnone, Option.none_or]

theorem symbol?_quoted (hc : isWordChar c = true) :
    symbol? ('\x27' :: c :: s) = some ['\x27', c] := by
  rw [symbol?_eq_marked? (by decide) (by decide), marked?, if_pos hc]

theorem symbol?_directive (hne : s ≠ []) (hs : s.all isWordChar = true) :
    symbol? ('\x60' :: s) = some ('\x60' :: s) := by
  have hhead : s.head?.any isWordChar = true := by
    obtain ⟨d, s, rfl⟩ := List.exists_cons_of_ne_nil hne
    exact List.all_eq_true.1 hs d List.mem_cons_self
  rw [symbol?_eq_marked? (by decide) (by decide), marked?_backtick, if_pos hhead,
    List.takeWhile_eq_self_iff.2 (List.all_eq_true.1 hs)]

/-! ### All kinds -/

/-- Not behind a word character, the lexeme of a canonical spelling is the whole spelling. -/
theorem Canonical.next?_eq_some (h : Canonical k w) (hprev : prev.any isWordChar = false) :
    next? prev w = some ⟨k, w⟩ := by
  cases h with
  | keyword hw =>
    rw [next?, keyword?_self hw hprev]
    rfl
  | paramOpen =>
    rw [next?, keyword?_eq_none (by decide)]
    rfl
  | @ident c s hc hs hw =>
    have hopen : c ≠ '#' := by
      rintro rfl
      exact absurd hc (by decide)
    -- a reserved word would be all that stands in front of the first dollar sign
    rw [next?, keyword?_eq_ite hprev, takeWhile_isWordChar_name (all_isNameChar_cons hc hs),
      if_neg hw, paramOpen?_eq_none hopen, ident?_self hc hs]
    rfl
  | plainNumber hne hds =>
    have hnumber := number?_digits_append (t := []) hne hds rfl
    rw [show sizedTail? [] = none from rfl, Option.getD_none, List.append_nil] at hnumber
    obtain ⟨d, ds, rfl⟩ := List.exists_cons_of_ne_nil hne
    exact next?_eq_number? (List.all_eq_true.1 hds d List.mem_cons_self) hnumber
  | @sizedNumber ds mark value base hne hds hmark hbase hvalue hvalues =>
    have htail : (mark ++ base :: value).head?.any isDecimalDigit = false := by
      rcases hmark with rfl | rfl
      · exact isDecimalDigit_eq_false_of_isBaseLetter hbase
      · rfl
    have hnumber := number?_digits_append hne hds htail
    rw [sizedTail?_self hmark hbase hvalue hvalues, Option.getD_some] at hnumber
    obtain ⟨d, ds, rfl⟩ := List.exists_cons_of_ne_nil hne
    exact next?_eq_number? (List.all_eq_true.1 hds d List.mem_cons_self) hnumber
  | @punctuation c hc =>
    have hmarks : Lexeme.punctuation.all startsNoOther = true := by decide
    rw [next?_eq_symbol? (List.all_eq_true.1 hmarks c hc), symbol?_punctuation hc]
    rfl
  | operator hw hne =>
    have hmarks : ∀ v ∈ operators, v.head?.any startsNoOther = true := by decide
    have hsymbol := symbol?_operator hw hne
    have hstart := hmarks w hw
    cases w with
    | nil => cases hstart
    | cons c s =>
      rw [next?_eq_symbol? hstart, hsymbol]
      rfl
  | quoted hc =>
    rw [next?_eq_symbol? (by decide), symbol?_quoted hc]
    rfl
  | directive hne hs =>
    rw [next?_eq_symbol? (by decide), symbol?_directive hne hs]
    rfl

/-- **Canonical spellings are read back.**  In front of a blank or of the end of the text, and not
behind a word character, the lexeme is the whole spelling. -/
theorem Canonical.next?_append (h : Canonical k w) (hprev : prev.any isWordChar = false)
    (hrest : Ends rest) : next? prev (w ++ rest) = some ⟨k, w⟩ := by
  rw [Lexeme.next?_append hrest.stops]
  exact h.next?_eq_some hprev

/-- A canonical spelling is read back where nothing else stands. -/
theorem Canonical.next?_self (h : Canonical k w) : next? none w = some ⟨k, w⟩ :=
  h.next?_eq_some Option.any_none

theorem Canonical.ne_nil (h : Canonical k w) : w ≠ [] :=
  next?_ne_nil h.next?_self

theorem notMem_of_class {p : Char → Bool} (hs : s.all p = true) (hc : p c = false) : c ∉ s := by
  intro hmem
  rw [List.all_eq_true.1 hs c hmem] at hc
  cases hc

/-- A slash is a canonical spelling, and no other canonical spelling has one. -/
theorem Canonical.eq_slash_or_notMem (h : Canonical k w) : w = ['/'] ∨ '/' ∉ w := by
  rw [or_iff_not_imp_right, not_not]
  intro hslash
  cases h with
  | keyword hw =>
    exact absurd hslash (notMem_of_class (all_isWordChar_of_mem hw) (by decide))
  | paramOpen => exact absurd hslash (by decide)
  | ident hc hs =>
    exact absurd hslash (notMem_of_class (all_isNameChar_cons hc hs) (by decide))
  | plainNumber _ hds => exact absurd hslash (notMem_of_class hds (by decide))
  | sizedNumber _ hds hmark hbase _ hvalues =>
    rw [List.mem_append, List.mem_append, List.mem_cons] at hslash
    rcases hslash with hdigit | hapostrophe | rfl | hvalue
    · exact absurd hdigit (notMem_of_class hds (by decide))
    · rcases hmark with rfl | rfl
      · cases hapostrophe
      · exact absurd hapostrophe (by decide)
    · exact absurd hbase (by decide)
    · exact absurd hvalue (notMem_of_class hvalues (by decide))
  | punctuation => rw [List.mem_singleton.1 hslash]
  | operator hw =>
    have hops : ∀ v ∈ operators, '/' ∉ v := by decide
    exact absurd hslash (hops w hw)
  | quoted hc =>
    obtain rfl : '/' = _ := by simpa using hslash
    exact absurd hc (by decide)
  | directive _ hs =>
    rcases List.mem_cons.1 hslash with hmark | hword
    · exact absurd hmark (by decide)
    · exact absurd hword (notMem_of_class hs (by decide))

end ModuleHierarchy.Lexeme
