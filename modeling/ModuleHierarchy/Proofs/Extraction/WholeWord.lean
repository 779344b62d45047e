/-
ModuleHierarchy/Proofs/Extraction/WholeWord.lean

Which words open and close modules.  Both passes compare spellings only, and a reserved word is read
as an identifier where it is no whole word.  So `1module foo;` declares and opens a module `foo`.

A word of the table is of kind `keyword` if and only if no word character stands directly before it
or behind it (`OnLine.keyword_iff`).  What an identifier can be glued to is limited
(`glued_of_not_wholeWord`).  It takes all ASCII word characters that follow, so only another letter
can stand behind it.  Of the lexemes that end in a word character, reserved words, identifiers and
directives take those that follow, which leaves numbers and marked characters in front of it; and a
word character that starts no lexeme is no ASCII character.
-/
import Mathlib.Data.List.Basic
import ModuleHierarchy.Proofs.Scan.Position
import ModuleHierarchy.Proofs.Token.Gap
import ModuleHierarchy.Proofs.Token.Language

namespace ModuleHierarchy

open Text

/-! ### Word characters -/

namespace Lexeme

variable {prev : Option Char} {c d : Char} {s t w rest : List Char} {l : Lexeme}

theorem isNameStart_or_isDecimalDigit (h : isWordChar c = true) (hc : c.toNat < 128) :
    isNameStart c = true ∨ isDecimalDigit c = true := by
  rw [isWordChar, if_pos hc, Char.isAlphanum, Bool.or_eq_true, Bool.or_eq_true] at h
  rw [isNameStart, isDecimalDigit, if_pos hc, Bool.or_eq_true]
  rcases h with (halpha | hdigit) | hunderscore
  · exact .inl (.inl halpha)
  · exact .inr hdigit
  · exact .inl (.inr hunderscore)

theorem kind_of_isNameStart (h : next? prev (c :: s) = some l) (hc : isNameStart c = true) :
    l.kind = .keyword ∨ l.kind = .ident := by
  have hopen : c ≠ '#' := by
    rintro rfl
    exact absurd hc (by decide)
  rw [next?, paramOpen?_eq_none hopen, ident?, if_pos hc] at h
  cases hkeyword : keyword? prev (c :: s) with
  | some w =>
    rw [hkeyword] at h
    exact .inl (congrArg kind (Option.some.inj h)).symm
  | none =>
    rw [hkeyword] at h
    exact .inr (congrArg kind (Option.some.inj h)).symm

/-- A symbol that ends in a word character, in front of another one, is an apostrophe with the
character that it marks. -/
theorem symbol?_ends_word (h : symbol? (w ++ rest) = some w)
    (hlast : w.getLast?.any isWordChar = true) (hrest : rest.head?.any isWordChar = true) :
    ∃ c, isWordChar c = true ∧ w = ['\x27', c] := by
  have hnot {v : List Char} (hv : v.getLast?.any isWordChar = false) : w ≠ v := by
    rintro rfl
    rw [hv] at hlast
    cases hlast
  have hpunctuation : punctuation.all (fun c => !isWordChar c) = true := by decide
  have hoperators : ∀ v ∈ operators, v.getLast?.any isWordChar = false := by decide
  rcases symbol?_eq_some h with ⟨c, t, -, hc, hw⟩ | ⟨hw, -⟩ | hmarked
  · have hc := List.all_eq_true.1 hpunctuation c hc
    rw [Bool.not_eq_true'] at hc
    exact absurd hw (hnot hc)
  · exact absurd rfl (hnot (hoperators w hw))
  rcases marked?_eq_some hmarked with ⟨c, t, -, hc, hw⟩ | ⟨t, hs, -, hw⟩
  · exact ⟨c, hc, hw⟩
  · rw [head?_any_of_run hw hs] at hrest
    cases hrest

end Lexeme

/-! ### Occurrences of words -/

namespace Occurrence

open Lexeme

variable {line : Nat} {s : List Char} {o o' : Occurrence}

/-- No word character stands directly before or behind the token. -/
def WholeWord (o : Occurrence) : Prop :=
  o.before.getLast?.any isWordChar = false ∧ o.after.head?.any isWordChar = false

instance (o : Occurrence) : Decidable o.WholeWord := by
  unfold WholeWord; infer_instance

/-- A reserved word is read as one if and only if it is a whole word. -/
theorem OnLine.keyword_iff (h : o.OnLine line s) (hw : o.token.text.toList ∈ keywords) :
    o.token.kind = .keyword ↔ o.WholeWord := by
  constructor
  · intro hkind
    have hkeyword := h.ofKind?
    rw [hkind] at hkeyword
    obtain ⟨hbefore, -, hrun⟩ := keyword?_eq_some_iff.1 hkeyword
    exact ⟨hbefore, head?_any_of_takeWhile_append hrun⟩
  · rintro ⟨hbefore, hafter⟩
    have hrun : o.ahead.takeWhile isWordChar = o.token.text.toList :=
      takeWhile_append_stop (all_isWordChar_of_mem hw) hafter
    rw [← hrun] at hw
    exact h.keyword_of_run hbefore hw

theorem OnLine.keyword_or_ident (h : o.OnLine line s) (hw : o.token.text.toList ∈ keywords) :
    o.token.kind = .keyword ∨ o.token.kind = .ident := by
  obtain ⟨c, v, hcons, hc⟩ := exists_cons_of_mem_keywords hw
  have hfound := h.found
  rw [ahead, hcons, List.cons_append] at hfound
  exact kind_of_isNameStart hfound hc

/-- What can stand next to an identifier that is no whole word; `os` are the occurrences of the
line. -/
inductive Glued (os : List Occurrence) (o : Occurrence) : Prop
  /-- A number ends right before it. -/
  | number (o' : Occurrence) (hmem : o' ∈ os) (hend : o'.upTo = o.before)
      (hkind : o'.token.kind = .number)
  /-- An apostrophe and the character that it marks end right before it. -/
  | marked (o' : Occurrence) (c : Char) (hmem : o' ∈ os) (hend : o'.upTo = o.before)
      (hc : isWordChar c = true) (htext : o'.token.text.toList = ['\x27', c])
  /-- Right before it stands a word character that is not ASCII and starts no lexeme. -/
  | dropped (p : List Char) (c : Char) (hbefore : o.before = p ++ [c]) (hc : isWordChar c = true)
      (hcode : 128 ≤ c.toNat) (hnone : next? p.getLast? (c :: o.ahead) = none)
  /-- Right behind it stands a word character that is not ASCII. -/
  | followed (c : Char) (hafter : o.after.head? = some c) (hc : isWordChar c = true)
      (hcode : 128 ≤ c.toNat)

/-- A token that ends in a word character, in front of the start of a name, is a number or a marked
character. -/
theorem OnLine.ends_word (h : o'.OnLine line s)
    (hlast : o'.token.text.toList.getLast?.any isWordChar = true)
    (hafter : o'.after.head?.any isNameStart = true) :
    o'.token.kind = .number ∨
      ∃ c, isWordChar c = true ∧ o'.token.text.toList = ['\x27', c] := by
  obtain ⟨d, hd, hstart⟩ := (Option.any_eq_true _ _).1 hafter
  have hname : o'.after.head?.any isNameChar = true := by
    rw [hd]
    exact isNameChar_of_isNameStart hstart
  have hword : o'.after.head?.any isWordChar = true := by
    rw [hd]
    refine isWordChar_of_isNameChar (isNameChar_of_isNameStart hstart) ?_
    rintro rfl
    exact absurd hstart (by decide)
  have hkind := h.ofKind?
  cases hk : o'.token.kind with
  | number => exact .inl rfl
  | keyword =>
    rw [hk] at hkind
    rw [head?_any_of_takeWhile_append (keyword?_eq_some_iff.1 hkind).2.2] at hword
    cases hword
  | paramOpen =>
    rw [hk] at hkind
    rw [(paramOpen?_eq_some hkind).1] at hlast
    exact absurd hlast (by decide)
  | ident =>
    rw [h.head?_after_any_isNameChar hk] at hname
    cases hname
  | symbol =>
    rw [hk] at hkind
    exact .inr (symbol?_ends_word hkind hlast hword)

theorem glued_of_not_wholeWord (h : o ∈ ofChars line s) (hkind : o.token.kind = .ident)
    (hnot : ¬ o.WholeWord) : Glued (ofChars line s) o := by
  have hline : o.OnLine line s := onLine_of_mem_walk h
  have hident := hline.ofKind?
  rw [hkind] at hident
  obtain ⟨e, t, hs, he, -⟩ := ident?_eq_some hident
  by_cases hafter : o.after.head?.any isWordChar = true
  · obtain ⟨c, hc, hword⟩ := (Option.any_eq_true _ _).1 hafter
    exact .followed c hc hword (hline.code_of_head?_after hkind hc hword)
  have hbefore : o.before.getLast?.any isWordChar = true := by
    by_contra hbefore
    exact hnot ⟨Bool.eq_false_iff.2 hbefore, Bool.eq_false_iff.2 hafter⟩
  cases preceded_of_mem_ofChars h with
  | start hnil =>
    rw [hnil] at hbefore
    cases hbefore
  | token o' hmem hend =>
    -- the word character is the last one of another token
    have hline' : o'.OnLine line s := onLine_of_mem_walk hmem
    have hspells := hline'.spells.trans hline.spells.symm
    rw [before_append_ahead, hend] at hspells
    have hafter' : o'.after.head?.any isNameStart = true := by
      rw [List.append_cancel_left hspells, hs, List.head?_cons, Option.any_some, he]
    have hlast : o'.token.text.toList.getLast?.any isWordChar = true := by
      rwa [← hend, upTo, List.getLast?_append_of_ne_nil _ (next?_ne_nil hline'.found)] at hbefore
    rcases hline'.ends_word hlast hafter' with hnumber | ⟨c, hc, htext⟩
    · exact .number o' hmem hend hnumber
    · exact .marked o' c hmem hend hc htext
  | dropped p c hp hnone =>
    rw [hp, List.getLast?_concat, Option.any_some] at hbefore
    -- an ASCII word character would start a name or a number
    refine .dropped p c hp hbefore (Nat.le_of_not_lt fun hcode => ?_) hnone
    have hnot := next?_eq_none_iff.1 hnone
    rcases isNameStart_or_isDecimalDigit hbefore hcode with hc | hc
    · rw [hnot.name] at hc
      cases hc
    · rw [hnot.digit] at hc
      cases hc

end Occurrence

/-! ### Modules -/

namespace Source

open Occurrence

variable {i : Nat}

/-- **Words that open and close modules.**  Take a token of a source that makes the first pass
record the name behind it, or that is an event of the second pass.  It spells `module` or
`endmodule`, and it stands on its line of the code.  It is a reserved word there if and only if it
is a whole word.  Else it is an identifier, and it is glued to a number, to a marked character or to
a letter that is not ASCII. -/
theorem moduleWords_extract (s : Source)
    (h : (∃ name, Scan.declaredAt? s.tokens (i + 1) = some name) ∨
      ∃ e, Scan.event? s.tokens i = some e) :
    ∃ o l, s.tokens[i]? = some o.token ∧ s.occurrences[i]? = some o ∧
      (o.token.text = "module" ∨ o.token.text = "endmodule") ∧
      s.codeLine? o.token.line = some l ∧ o.before ++ o.token.text.toList ++ o.after = l ∧
      (o.token.kind = .keyword ↔ o.WholeWord) ∧
      (¬ o.WholeWord → o.token.kind = .ident ∧ Glued (Occurrence.ofChars o.token.line l) o) := by
  obtain ⟨t, ht, htext⟩ :
      ∃ t, s.tokens[i]? = some t ∧ (t.text = "module" ∨ t.text = "endmodule") := by
    rcases h with ⟨name, hname⟩ | ⟨e, he⟩
    · obtain ⟨t, ht, hmodule⟩ := (Option.any_eq_true _ _).1 (Scan.module_of_declaredAt?_succ hname)
      exact ⟨t, ht, .inl (eq_of_beq hmodule)⟩
    · exact Scan.module_or_endmodule_of_event? he
  rw [← map_token_occurrences, List.getElem?_map] at ht
  obtain ⟨o, ho, rfl⟩ := Option.map_eq_some_iff.1 ht
  obtain ⟨l, hl, hmem⟩ := exists_codeLine_of_mem_occurrences (List.mem_of_getElem? ho)
  have hline : o.OnLine o.token.line l := onLine_of_mem_walk hmem
  have hword : o.token.text.toList ∈ Lexeme.keywords := by
    rcases htext with htext | htext <;> rw [htext] <;> decide
  have hiff := hline.keyword_iff hword
  refine ⟨o, l, ?_, ho, htext, hl, ?_, hiff, fun hnot => ?_⟩
  · rw [← map_token_occurrences, List.getElem?_map, ho, Option.map_some]
  · rw [List.append_assoc]
    exact hline.spells
  · have hident := (hline.keyword_or_ident hword).resolve_left fun hk => hnot (hiff.1 hk)
    exact ⟨hident, glued_of_not_wholeWord hmem hident hnot⟩

/-- The `module` behind an apostrophe and the character that it marks is read as an identifier, and
it opens a module all the same. -/
theorem moduleWords_extract_marked :
    let s : Source := ⟨"top.sv", "x 'dmodule foo;"⟩
    Scan.event? s.tokens 2 = some (.opening ⟨.ident, "foo", 1⟩) ∧
      ∃ o l, s.tokens[2]? = some o.token ∧ s.occurrences[2]? = some o ∧
        s.codeLine? o.token.line = some l ∧ o.before ++ o.token.text.toList ++ o.after = l ∧
        ¬ o.WholeWord ∧ o.token.kind = .ident ∧
        Glued (Occurrence.ofChars o.token.line l) o := by
  intro s
  have hevent : Scan.event? s.tokens 2 = some (.opening ⟨.ident, "foo", 1⟩) := by decide +kernel
  have hplace : s.occurrences[2]? =
      some ⟨"x 'd".toList, ⟨.ident, "module", 1⟩, " foo;".toList⟩ := by decide +kernel
  obtain ⟨o, l, htoken, ho, -, hl, hspells, -, hglued⟩ := moduleWords_extract s (.inr ⟨_, hevent⟩)
  have hnot : ¬ o.WholeWord := by
    rw [hplace] at ho
    obtain rfl := Option.some.inj ho
    decide
  obtain ⟨hident, hglued⟩ := hglued hnot
  exact ⟨hevent, o, l, htoken, ho, hl, hspells, hnot, hident, hglued⟩

/-- A `module` directly behind a number declares and opens a module, although it is neither a whole
word nor of kind `keyword`. -/
theorem moduleWords_extract_behind_number :
    let s : Source := ⟨"top.sv", "1module foo;\nendmodule\n"⟩
    s.extract.definitions = ["foo"] ∧
      Scan.declaredAt? s.tokens 2 = some ⟨.ident, "foo", 1⟩ ∧
      Scan.event? s.tokens 1 = some (.opening ⟨.ident, "foo", 1⟩) ∧
      ¬ ∀ (s : Source) (i : Nat) (o : Occurrence), s.occurrences[i]? = some o →
        ((∃ name, Scan.declaredAt? s.tokens (i + 1) = some name) ∨
          ∃ e, Scan.event? s.tokens i = some e) →
        o.WholeWord ∧ o.token.kind = .keyword := by
  intro s
  have hdeclared : Scan.declaredAt? s.tokens 2 = some ⟨.ident, "foo", 1⟩ := by decide +kernel
  have hplace : s.occurrences[1]? = some ⟨['1'], ⟨.ident, "module", 1⟩, " foo;".toList⟩ := by
    decide +kernel
  refine ⟨by decide +kernel, hdeclared, by decide +kernel, fun h => ?_⟩
  have hkind := (h s 1 _ hplace (.inl ⟨_, hdeclared⟩)).2
  cases hkind

end Source

end ModuleHierarchy
