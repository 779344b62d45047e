/-
ModuleHierarchy/Proofs/Extraction/Inert.lean

Inert characters only part the tokens of a source.  It makes no difference which of them stands at
a place: a map that exchanges inert characters for inert characters and leaves all others alone
turns a text into an alike one (`Alike.map`), and sources with alike contents have the same tokens
(`Source.tokens_eq_of_alike`).

The replacement of no-break spaces is such a map, so it has no influence on what a source yields.
-/
import ModuleHierarchy.Proofs.Extraction.Comment
import ModuleHierarchy.Proofs.Token.Alike

namespace ModuleHierarchy

open Lexeme

variable {f : Char → Char} {s₁ s₂ : Source}

/-! ### Exchanged characters -/

theorem Token.Alike.map (hkeep : ∀ c, isInert c = false → f c = c)
    (hinert : ∀ c, isInert c = true → isInert (f c) = true) (s : List Char) :
    Token.Alike (s.map f) s := by
  induction s with
  | nil => exact .nil
  | cons c s ih =>
    rw [List.map_cons]
    apply ih.cons
    cases hc : isInert c with
    | false => exact .inl (hkeep c hc)
    | true => exact .inr ⟨hinert c hc, hc⟩

/-- Spaces for no-break spaces are inert characters for inert ones. -/
theorem Token.alike_map_plainSpace (s : List Char) : Token.Alike (s.map Text.plainSpace) s := by
  apply Token.Alike.map
  · intro c hc
    rw [Text.plainSpace, if_neg]
    rintro rfl
    exact absurd hc (by decide +kernel)
  · intro c hc
    rw [Text.plainSpace]
    split
    · decide
    · exact hc

namespace Source

/-! ### Sources with alike contents -/

/-- The tokens are those of the content without its comments. -/
theorem tokens_eq (s : Source) : s.tokens = Token.ofText (Comment.strip s.content.toList) :=
  (Token.alike_map_plainSpace s.content.toList).strip.ofText_eq

theorem tokens_eq_of_alike (h : Token.Alike s₁.content.toList s₂.content.toList) :
    s₁.tokens = s₂.tokens := by
  rw [tokens_eq, tokens_eq]
  exact h.strip.ofText_eq

/-- **Inert characters are interchangeable.**  A map that sends inert characters to inert characters
and leaves the other characters alone changes neither the tokens of a text nor what a source
yields.  Replacing no-break spaces does not change what a source yields either. -/
theorem sameReport_map (hkeep : ∀ c, isInert c = false → f c = c)
    (hinert : ∀ c, isInert c = true → isInert (f c) = true) :
    (∀ text : List Char, Token.ofText (text.map f) = Token.ofText text) ∧
      (∀ path content, SameReport ⟨path, content.map f⟩ ⟨path, content⟩) ∧
      ∀ s : Source,
        s.extract = Extraction.ofTokens (Token.ofText (Comment.strip s.content.toList)) ∅ := by
  refine ⟨?_, ?_, ?_⟩
  · intro text
    exact (Token.Alike.map hkeep hinert text).ofText_eq
  · intro path content
    apply SameReport.of_tokens
    apply tokens_eq_of_alike
    show Token.Alike (content.map f).toList content.toList
    rw [String.toList_map]
    exact Token.Alike.map hkeep hinert content.toList
  · intro s
    rw [extract, tokens_eq]

theorem sameReport_map_quotes :
    let f : Char → Char := fun c => if c = '\t' then '\x22' else if c = ' ' then '\x5c' else c
    (∀ c, isInert c = false → f c = c) ∧ (∀ c, isInert c = true → isInert (f c) = true) ∧
      "module a;\tb u ();".map f = "module\\a;\x22b\\u\\();" ∧
      SameReport ⟨"top.sv", "module\\a;\x22b\\u\\();"⟩ ⟨"top.sv", "module a;\tb u ();"⟩ := by
  intro f
  have hkeep : ∀ c, isInert c = false → f c = c := by
    intro c hc
    have htab : c ≠ '\t' := by
      rintro rfl
      exact absurd hc (by decide)
    have hspace : c ≠ ' ' := by
      rintro rfl
      exact absurd hc (by decide)
    show (if c = '\t' then _ else if c = ' ' then _ else c) = c
    rw [if_neg htab, if_neg hspace]
  have hinert : ∀ c, isInert c = true → isInert (f c) = true := by
    intro c hc
    show isInert (if c = '\t' then _ else if c = ' ' then _ else c) = true
    split
    · decide
    · split
      · decide
      · exact hc
  have hmap : "module a;\tb u ();".map f = "module\\a;\x22b\\u\\();" := by
    rw [← String.toList_inj, String.toList_map]
    decide
  refine ⟨hkeep, hinert, hmap, ?_⟩
  rw [← hmap]
  exact (sameReport_map hkeep hinert).2.1 "top.sv" "module a;\tb u ();"

end Source

end ModuleHierarchy
