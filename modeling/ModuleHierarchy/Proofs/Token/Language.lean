/-
ModuleHierarchy/Proofs/Token/Language.lean

The spellings that tokens have.  `Spelled` is the language of each kind of token, and every lexeme
belongs to that of its kind (`spelled_of_next?`).  Apart from identifiers the languages hold the
canonical spellings and no others, so that printing such a token and reading it gives it back.  An
identifier may be or start with a reserved word, where it stands off a word boundary.

What the passes over the tokens ask of a spelling follows from the languages alone: a token is no
mark of a comment, and it is a plain name if and only if it is a reserved word or an identifier and
has no dollar sign (`isPlainName_iff`).  Only where an identifier ends depends on what stands behind
it, so the main result is about tokens in their places (`lexical_tokens`).
-/
import ModuleHierarchy.Proofs.Token.Canonical
import ModuleHierarchy.Proofs.Token.Spelling

namespace ModuleHierarchy

open Text

/-! ### The languages -/

namespace Lexeme

variable {prev : Option Char} {c : Char} {s w : List Char} {k : Token.Kind} {l : Lexeme}

/-- The spellings of each kind of token.  An identifier is any name, and the other kinds have their
canonical spellings. -/
inductive Spelled : Token.Kind → List Char → Prop
  | ident {c : Char} {s : List Char} (hc : isNameStart c = true) (hs : s.all isNameChar = true) :
      Spelled .ident (c :: s)
  | canonical {k : Token.Kind} {w : List Char} (hk : k ≠ .ident) (hw : Canonical k w) : Spelled k w

theorem exists_of_baseAndValue? (h : baseAndValue? s = some w) :
    ∃ base value, isBaseLetter base = true ∧ value ≠ [] ∧ value.all isValueChar = true ∧
      w = base :: value := by
  obtain ⟨c, t, -, hbase, ht, rfl⟩ := baseAndValue?_eq_some h
  exact ⟨c, t.takeWhile isValueChar, hbase, takeWhile_ne_nil ht, List.all_takeWhile, rfl⟩

theorem exists_of_sizedTail? (h : sizedTail? s = some w) :
    ∃ mark base value, (mark = [] ∨ mark = ['\x27']) ∧ isBaseLetter base = true ∧ value ≠ [] ∧
      value.all isValueChar = true ∧ w = mark ++ base :: value := by
  rcases sizedTail?_eq_some h with ⟨t, v, -, hv, rfl⟩ | hv
  · obtain ⟨base, value, hbase, hvalue, hvalues, rfl⟩ := exists_of_baseAndValue? hv
    exact ⟨['\x27'], base, value, .inr rfl, hbase, hvalue, hvalues, rfl⟩
  · obtain ⟨base, value, hbase, hvalue, hvalues, rfl⟩ := exists_of_baseAndValue? hv
    exact ⟨[], base, value, .inl rfl, hbase, hvalue, hvalues, rfl⟩

theorem canonical_of_number? (h : number? s = some w) : Canonical .number w := by
  obtain ⟨hne, rfl⟩ := number?_eq_some h
  have hds : (s.takeWhile isDecimalDigit).all isDecimalDigit = true := List.all_takeWhile
  cases ht : sizedTail? (s.dropWhile isDecimalDigit) with
  | none =>
    rw [Option.getD_none, List.append_nil]
    exact .plainNumber hne hds
  | some v =>
    obtain ⟨mark, base, value, hmark, hbase, hvalue, hvalues, rfl⟩ := exists_of_sizedTail? ht
    exact .sizedNumber hne hds hmark hbase hvalue hvalues

theorem canonical_of_symbol? (h : symbol? s = some w) : Canonical .symbol w := by
  rcases symbol?_eq_some h with ⟨c, t, -, hc, rfl⟩ | ⟨hw, t, rfl⟩ | hmarked
  · exact .punctuation hc
  · refine .operator hw ?_
    rintro rfl
    -- the first equals sign is taken as a punctuation mark
    rw [List.cons_append, symbol?_punctuation (by decide)] at h
    cases h
  · rcases marked?_eq_some hmarked with ⟨c, t, -, hc, rfl⟩ | ⟨t, -, ht, rfl⟩
    · exact .quoted hc
    · exact .directive (takeWhile_ne_nil ht) List.all_takeWhile

/-- Every lexeme belongs to the language of its kind. -/
theorem spelled_of_next? (h : next? prev s = some l) : Spelled l.kind l.spelling := by
  have hkind := ofKind?_of_next? h
  obtain ⟨k, w⟩ := l
  cases k with
  | keyword => exact .canonical (by simp) (.keyword (tableWord?_eq_some hkind).1)
  | paramOpen =>
    obtain ⟨rfl, -⟩ := paramOpen?_eq_some hkind
    exact .canonical (by simp) .paramOpen
  | ident =>
    obtain ⟨c, t, -, hc, rfl⟩ := ident?_eq_some hkind
    exact .ident hc List.all_takeWhile
  | number => exact .canonical (by simp) (canonical_of_number? hkind)
  | symbol => exact .canonical (by simp) (canonical_of_symbol? hkind)

theorem Spelled.ne_nil (h : Spelled k w) : w ≠ [] := by
  cases h with
  | ident => exact List.cons_ne_nil _ _
  | canonical _ hw => exact hw.ne_nil

/-! ### Comment marks -/

theorem Spelled.eq_slash_or_notMem (h : Spelled k w) : w = ['/'] ∨ '/' ∉ w := by
  cases h with
  | ident hc hs => exact .inr (notMem_of_class (all_isNameChar_cons hc hs) (by decide))
  | canonical _ hw => exact hw.eq_slash_or_notMem

theorem Spelled.ne_mark (h : Spelled k w) (x : Char) : w ≠ ['/', x] := by
  rintro rfl
  rcases h.eq_slash_or_notMem with hslash | hno
  · cases hslash
  · exact hno List.mem_cons_self

/-! ### Plain names -/

theorem all_isWordChar_iff (hs : s.all isNameChar = true) :
    s.all isWordChar = true ↔ '$' ∉ s := by
  refine ⟨fun hword => notMem_of_class hword (by decide), fun hno => ?_⟩
  refine List.all_eq_true.2 fun c hc => isWordChar_of_isNameChar (List.all_eq_true.1 hs c hc) ?_
  rintro rfl
  exact hno hc

/-- The spelling of a number, a symbol or the opening of overrides does not start like a name. -/
theorem Canonical.head?_any_isNameStart (h : Canonical k w) (hkeyword : k ≠ .keyword)
    (hident : k ≠ .ident) : w.head?.any isNameStart = false := by
  have hdigits {ds t : List Char} (hne : ds ≠ []) (hds : ds.all isDecimalDigit = true) :
      (ds ++ t).head?.any isNameStart = false := by
    obtain ⟨d, ds, rfl⟩ := List.exists_cons_of_ne_nil hne
    exact isNameStart_eq_false_of_isDecimalDigit (List.all_eq_true.1 hds d List.mem_cons_self)
  cases h with
  | keyword => exact absurd rfl hkeyword
  | paramOpen => decide
  | ident => exact absurd rfl hident
  | plainNumber hne hds =>
    rw [← List.append_nil w]
    exact hdigits hne hds
  | sizedNumber hne hds => exact hdigits hne hds
  | @punctuation c hc =>
    have hmarks : Lexeme.punctuation.all (fun d => !isNameStart d) = true := by decide
    have hmark := List.all_eq_true.1 hmarks c hc
    rwa [Bool.not_eq_true'] at hmark
  | operator hw =>
    have hops : ∀ v ∈ operators, v.head?.any isNameStart = false := by decide
    exact hops w hw
  | quoted => rfl
  | directive => rfl

/-- Spelled like a plain name are the reserved words and the identifiers without a dollar sign. -/
theorem Spelled.plain_iff (h : Spelled k (c :: s)) :
    (isNameStart c && s.all isWordChar) = true ↔ (k = .keyword ∨ k = .ident) ∧ '$' ∉ c :: s := by
  rw [Bool.and_eq_true]
  cases h with
  | ident hc hs =>
    have hdollar : '$' ≠ c := by
      rintro rfl
      exact absurd hc (by decide)
    simp [all_isWordChar_iff hs, hc, hdollar]
  | canonical hident hw =>
    by_cases hkeyword : k = .keyword
    · subst hkeyword
      cases hw with
      | keyword hw =>
        have hall := all_isWordChar_of_mem hw
        have hdollar : '$' ∉ c :: s := notMem_of_class hall (by decide)
        obtain ⟨d, v, hcons, hstart⟩ := exists_cons_of_mem_keywords hw
        obtain ⟨rfl, rfl⟩ := List.cons.inj hcons
        rw [List.all_cons, Bool.and_eq_true] at hall
        exact iff_of_true ⟨hstart, hall.2⟩ ⟨.inl rfl, hdollar⟩
    · have hstart : isNameStart c = false := hw.head?_any_isNameStart hkeyword hident
      simp [hstart, hkeyword, hident]

end Lexeme

namespace Token

open Lexeme

variable {t : Token}

/-- A token is a plain name if and only if it is a reserved word or an identifier and has no dollar
sign. -/
theorem isPlainName_iff (h : Spelled t.kind t.text.toList) :
    t.isPlainName = true ↔ (t.kind = .keyword ∨ t.kind = .ident) ∧ '$' ∉ t.text.toList := by
  rw [isPlainName]
  cases hs : t.text.toList with
  | nil => exact absurd hs h.ne_nil
  | cons c s =>
    rw [hs] at h
    exact h.plain_iff

end Token

/-! ### Tokens in their places -/

namespace Occurrence

open Lexeme Token

variable {o : Occurrence} {line : Nat} {s : List Char}

/-- What is true of every token, given what stands behind it on its line. -/
structure Lexical (o : Occurrence) : Prop where
  spelled : Spelled o.token.kind o.token.text.toList
  /-- An identifier ends where no character of a name follows. -/
  ends : o.token.kind = .ident → o.after.head?.any isNameChar = false
  solid : Solid o.token.text.toList
  not_mark : o.token.text ≠ "//" ∧ o.token.text ≠ "/*"
  plain_iff : o.token.isPlainName = true ↔
    (o.token.kind = .keyword ∨ o.token.kind = .ident) ∧ '$' ∉ o.token.text.toList

theorem OnLine.head?_after_any_isNameChar (h : o.OnLine line s) (hkind : o.token.kind = .ident) :
    o.after.head?.any isNameChar = false := by
  have hident := h.ofKind?
  rw [hkind] at hident
  obtain ⟨c, t, hahead, -, hw⟩ := ident?_eq_some hident
  exact head?_any_of_run hw hahead

/-- Where the run of word characters is a reserved word and none stands in front of it, the reserved
word is found. -/
theorem OnLine.keyword_of_run (h : o.OnLine line s) (hbefore : o.before.getLast?.any isWordChar = false)
    (hrun : o.ahead.takeWhile isWordChar ∈ keywords) : o.token.kind = .keyword := by
  have hfound := h.found
  rw [next?, keyword?_eq_ite hbefore, if_pos hrun] at hfound
  exact (congrArg Lexeme.kind (Option.some.inj hfound)).symm

/-- An identifier takes all ASCII word characters that follow. -/
theorem OnLine.code_of_head?_after (h : o.OnLine line s) (hkind : o.token.kind = .ident) {c : Char}
    (hc : o.after.head? = some c) (hword : isWordChar c = true) : 128 ≤ c.toNat := by
  refine Nat.le_of_not_lt fun hcode => ?_
  have hno := h.head?_after_any_isNameChar hkind
  rw [hc, Option.any_some, isNameChar_of_isWordChar hword hcode] at hno
  cases hno

theorem OnLine.lexical (h : o.OnLine line s) : o.Lexical where
  spelled := spelled_of_next? h.found
  ends := h.head?_after_any_isNameChar
  solid := next?_solid h.found
  not_mark := by
    have hspelled : Spelled o.token.kind o.token.text.toList := spelled_of_next? h.found
    exact ⟨fun hmark => hspelled.ne_mark '/' (congrArg String.toList hmark),
      fun hmark => hspelled.ne_mark '*' (congrArg String.toList hmark)⟩
  plain_iff := isPlainName_iff (spelled_of_next? h.found)

/-- **Every token belongs to the language of its kind.**  The occurrences on a line stand for its
tokens, one for one, and each has the spelling of its kind and ends where that kind ends.  The same
holds of a text that is read line by line, where an occurrence stands on the line it carries the
number of, without the comments and the blanks at the ends. -/
theorem lexical_tokens :
    (∀ (line : Nat) (s : List Char), (ofChars line s).map token = Token.ofChars line s ∧
      ∀ o ∈ ofChars line s, o.OnLine line s ∧ o.Lexical) ∧
    ∀ s : List Char, (ofText s).map token = Token.ofText s ∧
      ∀ o ∈ ofText s, ∃ n l, (s.splitOn '\n')[n]? = some l ∧
        o.OnLine (n + 1) (Text.trim (Comment.strip l)) ∧ o.Lexical := by
  refine ⟨fun line s => ⟨map_token_ofChars line s, fun o ho => ?_⟩,
    fun s => ⟨map_token_ofText s, fun o ho => ?_⟩⟩
  · have hline : o.OnLine line s := onLine_of_mem_walk ho
    exact ⟨hline, hline.lexical⟩
  · obtain ⟨n, l, -, hl, ho⟩ := exists_line_of_mem_ofText ho
    have hline : o.OnLine (n + 1) (Text.trim (Comment.strip l)) := onLine_of_mem_walk ho
    exact ⟨n, l, hl, hline, hline.lexical⟩

/-- Behind a digit a reserved word is an identifier, and a name goes on over a dollar sign but not
over a letter outside ASCII. -/
theorem lexical_tokens_off_boundary :
    let o : Occurrence := ⟨"1".toList, ⟨.ident, "module", 2⟩, " ".toList ++ "a$é".toList⟩
    let o' : Occurrence := ⟨"1module ".toList, ⟨.ident, "a$", 2⟩, "é".toList⟩
    ofText "\n 1module a$é // x".toList = [⟨[], ⟨.number, "1", 2⟩, "module a$é".toList⟩, o, o'] ∧
      (o.Lexical ∧ o.token.isPlainName = true) ∧ o'.Lexical ∧ o'.token.isPlainName = false := by
  intro o o'
  have hos : ofText "\n 1module a$é // x".toList =
      [⟨[], ⟨.number, "1", 2⟩, "module a$é".toList⟩, o, o'] := by decide +kernel
  have hlexical : ∀ u ∈ ofText "\n 1module a$é // x".toList, u.Lexical := by
    intro u hu
    obtain ⟨n, l, -, -, hu⟩ := (lexical_tokens.2 _).2 u hu
    exact hu
  rw [hos] at hlexical
  exact ⟨hos, ⟨hlexical o (by simp), by decide⟩, hlexical o' (by simp), by decide⟩

end Occurrence

end ModuleHierarchy
