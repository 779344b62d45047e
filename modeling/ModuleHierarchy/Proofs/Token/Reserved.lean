/-
ModuleHierarchy/Proofs/Token/Reserved.lean

Reserved words are whole words.  A reserved word is found behind no word character only, and it is
the longest run of word characters that the text starts with, looked up in the table:

    keyword? prev s = some w ↔
      prev.any isWordChar = false ∧ w ∈ keywords ∧ Longest (oneOf isWordChar)∗ s w
                                                              (`keyword?_eq_some_iff_longest`).

A text has one such run, so it makes no difference which word of the table is tried first, although
some of them start with others (`tableWord?_of_perm`).

What looks like a reserved word but is read as an identifier is no whole word.  Its word characters
go on behind it, or there is one in front of it (`OnLine.off_boundary`).
-/
import ModuleHierarchy.Proofs.Text.Longest
import ModuleHierarchy.Proofs.Token.Language
import ModuleHierarchy.Proofs.Token.Slice

namespace ModuleHierarchy

open Text
open scoped Computability

/-! ### The look-up -/

namespace Lexeme

variable {prev : Option Char} {s w rest : List Char}

theorem keyword?_eq_some_iff_longest :
    keyword? prev s = some w ↔
      prev.any isWordChar = false ∧ w ∈ keywords ∧ Longest (oneOf isWordChar)∗ s w := by
  rw [keyword?_eq_some_iff, longest_kstar_oneOf_iff]

/-- The order of the table plays no role. -/
theorem tableWord?_of_perm {table : List (List Char)} (h : table.Perm keywords) :
    tableWord? table = keyword? := by
  have htable : ∀ v ∈ table, v.all isWordChar = true :=
    fun v hv => all_isWordChar_of_mem (h.mem_iff.1 hv)
  funext prev s
  ext w
  rw [tableWord?_eq_some_iff htable, keyword?_eq_some_iff, h.mem_iff]

/-- The size of a reserved word is that of the run of word characters. -/
theorem yields_keywordSize? (prev : Option Char) (rest : String) :
    Yields (keywordSize? prev rest) fun n? => ∀ n, n? = some n ↔
      prev.any isWordChar = false ∧
        ∃ w ∈ keywords, Longest (oneOf isWordChar)∗ rest.toList w ∧ size w = n := by
  refine ⟨_, keywordSize?_eq prev rest, fun n => ?_⟩
  rw [Option.map_eq_some_iff]
  constructor
  · rintro ⟨w, hw, hn⟩
    obtain ⟨hprev, hmem, hlongest⟩ := keyword?_eq_some_iff_longest.1 hw
    exact ⟨hprev, w, hmem, hlongest, hn⟩
  · rintro ⟨hprev, w, hmem, hlongest, hn⟩
    exact ⟨w, keyword?_eq_some_iff_longest.2 ⟨hprev, hmem, hlongest⟩, hn⟩

/-- The word characters of a name end at its first dollar sign, or at its end if no word character
follows. -/
theorem takeWhile_isWordChar_name_append (hs : s.all isNameChar = true)
    (h : '$' ∈ s ∨ rest.head?.any isWordChar = false) :
    (s ++ rest).takeWhile isWordChar = s.takeWhile (· ≠ '$') := by
  rw [← takeWhile_isWordChar_name hs]
  rcases h with hdollar | hrest
  · have hlength : (s.takeWhile isWordChar).length ≠ s.length := by
      intro hlength
      have hself : s.takeWhile isWordChar = s := (List.takeWhile_prefix _).eq_of_length hlength
      have hall : s.all isWordChar = true := hself ▸ List.all_takeWhile
      exact (all_isWordChar_iff hs).1 hall hdollar
    rw [List.takeWhile_append, if_neg hlength]
  · exact takeWhile_append_of_head? hrest s

end Lexeme

/-! ### Words off a boundary -/

namespace Occurrence

open Lexeme

variable {line : Nat} {s : List Char} {o : Occurrence}

theorem OnLine.all_isNameChar (h : o.OnLine line s) (hkind : o.token.kind = .ident) :
    o.token.text.toList.all isNameChar = true := by
  have hident := h.ofKind?
  rw [hkind] at hident
  obtain ⟨c, t, -, hc, htext⟩ := ident?_eq_some hident
  rw [htext]
  exact all_isNameChar_cons hc List.all_takeWhile

/-- An identifier that is a reserved word up to its first dollar sign stands behind a word character,
or it has no dollar sign and stands in front of a word character that is not ASCII. -/
theorem OnLine.off_boundary (h : o.OnLine line s) (hkind : o.token.kind = .ident)
    (hw : o.token.text.toList.takeWhile (· ≠ '$') ∈ keywords) :
    o.before.getLast?.any isWordChar = true ∨
      '$' ∉ o.token.text.toList ∧
        ∃ c, o.after.head? = some c ∧ isWordChar c = true ∧ 128 ≤ c.toNat := by
  rw [or_iff_not_imp_left, Bool.not_eq_true]
  intro hbefore
  have hrun : o.ahead.takeWhile isWordChar ∉ keywords := by
    intro hmem
    rw [h.keyword_of_run hbefore hmem] at hkind
    cases hkind
  have hnot : ¬ ('$' ∈ o.token.text.toList ∨ o.after.head?.any isWordChar = false) := by
    intro hstop
    rw [ahead, takeWhile_isWordChar_name_append (h.all_isNameChar hkind) hstop] at hrun
    exact hrun hw
  rw [not_or, Bool.not_eq_false] at hnot
  obtain ⟨hdollar, hafter⟩ := hnot
  obtain ⟨c, hc, hword⟩ := (Option.any_eq_true _ _).1 hafter
  exact ⟨hdollar, c, hc, hword, h.code_of_head?_after hkind hc hword⟩

end Occurrence

open Lexeme Occurrence

/-- **Reserved words are whole words.**  A reserved word is found if and only if no word character
stands in front of the text and the longest run of word characters at its start is in the table.
Its size is that of the run, and every order of the table finds the same.  On a line, a token that is
a reserved word up to its first dollar sign and still an identifier stands directly behind a word
character, or it has no dollar sign and stands directly in front of a word character that is not
ASCII. -/
theorem reserved_whole_words :
    (∀ (prev : Option Char) (s w : List Char), keyword? prev s = some w ↔
      prev.any isWordChar = false ∧ w ∈ keywords ∧ Longest (oneOf isWordChar)∗ s w) ∧
    (∀ (prev : Option Char) (rest : String), Yields (keywordSize? prev rest) fun n? =>
      ∀ n, n? = some n ↔ prev.any isWordChar = false ∧
        ∃ w ∈ keywords, Longest (oneOf isWordChar)∗ rest.toList w ∧ size w = n) ∧
    (∀ table : List (List Char), table.Perm keywords → tableWord? table = keyword?) ∧
    ∀ (line : Nat) (s : List Char), (ofChars line s).map token = Token.ofChars line s ∧
      ∀ o ∈ ofChars line s, o.OnLine line s ∧
        (o.token.kind = .ident → o.token.text.toList.takeWhile (· ≠ '$') ∈ keywords →
          o.before.getLast?.any isWordChar = true ∨
            '$' ∉ o.token.text.toList ∧
              ∃ c, o.after.head? = some c ∧ isWordChar c = true ∧ 128 ≤ c.toNat) := by
  refine ⟨fun prev s w => keyword?_eq_some_iff_longest, yields_keywordSize?,
    fun table => tableWord?_of_perm, fun line s => ⟨map_token_ofChars line s, fun o ho => ?_⟩⟩
  have hline : o.OnLine line s := onLine_of_mem_walk ho
  exact ⟨hline, hline.off_boundary⟩

/-- A reserved word with a dollar sign behind a digit, and one in front of a letter outside ASCII;
and a table in which `end` stands behind what starts with it, and in front of it. -/
theorem reserved_whole_words_off_boundary :
    let s := "1end$x if\u00e9".toList
    let o : Occurrence := ⟨"1".toList, ⟨.ident, "end$x", 3⟩, " if\u00e9".toList⟩
    let o' : Occurrence := ⟨"1end$x ".toList, ⟨.ident, "if", 3⟩, "\u00e9".toList⟩
    (keywords.reverse.Perm keywords ∧
      tableWord? keywords.reverse none "endcase;".toList = some "endcase".toList ∧
      keyword? none "endcase;".toList = some "endcase".toList) ∧
    (o ∈ ofChars 3 s ∧ o' ∈ ofChars 3 s) ∧
    (o.before.getLast?.any isWordChar = true ∨
      '$' ∉ o.token.text.toList ∧
        ∃ c, o.after.head? = some c ∧ isWordChar c = true ∧ 128 ≤ c.toNat) ∧
    ∃ c, o'.after.head? = some c ∧ isWordChar c = true ∧ 128 ≤ c.toNat := by
  intro s o o'
  have hperm : keywords.reverse.Perm keywords := List.reverse_perm keywords
  have ho : o ∈ ofChars 3 s := by decide +kernel
  have ho' : o' ∈ ofChars 3 s := by decide +kernel
  obtain ⟨-, -, htable, hlines⟩ := reserved_whole_words
  have hword : keyword? none "endcase;".toList = some "endcase".toList := by decide +kernel
  have hright := (((hlines 3 s).2 o' ho').2 rfl (by decide)).resolve_left (by decide)
  refine ⟨⟨hperm, ?_, hword⟩, ⟨ho, ho'⟩, ((hlines 3 s).2 o ho).2 rfl (by decide), hright.2⟩
  rw [htable _ hperm, hword]

end ModuleHierarchy
