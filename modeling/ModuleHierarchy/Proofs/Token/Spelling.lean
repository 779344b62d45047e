/-
ModuleHierarchy/Proofs/Token/Spelling.lean

What tokens are spelled with and where they stand.  No lexeme holds a blank character
(`next?_solid`), since blanks are separators.  A token of a text is spelled by a stretch of the
line that it carries the number of, or of what is left of that line without its comments
(`exists_line_of_mem_ofText`), and the numbers never go down (`pairwise_line_ofText`).
-/
import ModuleHierarchy.Proofs.Comment.Closed
import ModuleHierarchy.Proofs.Token.Occurrence
import ModuleHierarchy.Proofs.Token.Separator

namespace ModuleHierarchy

/-! ### Lexemes -/

namespace Lexeme

open Text

variable {prev : Option Char} {s : List Char} {l : Lexeme}

/-- No lexeme holds a blank character. -/
theorem next?_solid (h : next? prev s = some l) : Solid l.spelling := by
  intro c hc
  rw [Bool.eq_false_iff]
  intro hblank
  have hnot := isSeparator_eq_false_of_mem h hc
  rw [isSeparator_of_isBlank hblank] at hnot
  cases hnot

end Lexeme

/-! ### Tokens -/

namespace Token

variable {t : Token} {line : Nat} {s : List Char}

/-- A token of a line stands somewhere on it. -/
theorem exists_onLine_of_mem_ofChars (h : t ∈ ofChars line s) :
    ∃ o : Occurrence, o.OnLine line s ∧ o.token = t := by
  rw [← Occurrence.map_token_ofChars] at h
  obtain ⟨o, ho, rfl⟩ := List.mem_map.1 h
  exact ⟨o, Occurrence.onLine_of_mem_walk ho, rfl⟩

theorem line_eq_of_mem_ofChars (h : t ∈ ofChars line s) : t.line = line := by
  obtain ⟨o, ho, rfl⟩ := exists_onLine_of_mem_ofChars h
  exact ho.numbered

theorem text_infix_of_mem_ofChars (h : t ∈ ofChars line s) : t.text.toList <:+: s := by
  obtain ⟨o, ho, rfl⟩ := exists_onLine_of_mem_ofChars h
  exact ⟨o.before, o.after, by rw [List.append_assoc]; exact ho.spells⟩

theorem text_ne_empty_of_mem_ofChars (h : t ∈ ofChars line s) : t.text ≠ "" := by
  obtain ⟨o, ho, rfl⟩ := exists_onLine_of_mem_ofChars h
  intro hempty
  exact Lexeme.next?_ne_nil ho.found (congrArg String.toList hempty)

theorem solid_of_mem_ofChars (h : t ∈ ofChars line s) : Text.Solid t.text.toList := by
  obtain ⟨o, ho, rfl⟩ := exists_onLine_of_mem_ofChars h
  exact Lexeme.next?_solid ho.found

/-! ### Lines -/

/-- A token stands on the line it carries the number of, with its characters in order and none
of them blank. -/
theorem exists_line_of_mem_ofText (h : t ∈ ofText s) :
    ∃ k l, t.line = k + 1 ∧ (s.splitOn '\n')[k]? = some l ∧ t.text.toList.Sublist l ∧
      Text.Solid t.text.toList := by
  rw [← Occurrence.map_token_ofText] at h
  obtain ⟨o, ho, rfl⟩ := List.mem_map.1 h
  obtain ⟨n, l, hn, hl, ho⟩ := Occurrence.exists_line_of_mem_ofText ho
  have ht : o.token ∈ ofChars (n + 1) (Text.trim (Comment.strip l)) := by
    rw [← Occurrence.map_token_ofChars]
    exact List.mem_map_of_mem ho
  have htrim := (text_infix_of_mem_ofChars ht).sublist.trans (Text.trim_sublist _)
  exact ⟨n, l, hn, hl, htrim.trans (Comment.thinned_strip l).sublist, solid_of_mem_ofChars ht⟩

/-- The numbers of the lines of the tokens never go down. -/
theorem pairwise_line_ofText (s : List Char) :
    (ofText s).Pairwise fun t u => t.line ≤ u.line := by
  have hnumbers : ((s.splitOn '\n').zipIdx 1).Pairwise fun a b => a.2 < b.2 := by
    rw [← List.pairwise_map (R := (· < ·)), List.zipIdx_map_snd]
    exact List.pairwise_lt_range'
  refine List.pairwise_flatMap.2 ⟨?_, hnumbers.imp ?_⟩
  · -- on one line all numbers are equal
    intro a _
    refine List.pairwise_of_forall_mem_list fun t ht u hu => ?_
    rw [line_eq_of_mem_ofChars ht, line_eq_of_mem_ofChars hu]
  · intro a b hab t ht u hu
    rw [line_eq_of_mem_ofChars ht, line_eq_of_mem_ofChars hu]
    exact Nat.le_of_lt hab

end Token

end ModuleHierarchy
