/-
ModuleHierarchy/Proofs/Token/RoundTrip.lean

Printing tokens and reading them again.  The tokens are printed on one line, with a blank between
two of them, so each spelling stands in front of a blank or of the end and behind no word
character: if all spellings are canonical, every step of the walk yields the next token
(`walk_spaced`).  What is done to a line before it is cut into tokens changes nothing here.  A slash
has a blank behind it, so there is no comment, and there is no blank at the ends.
-/
import ModuleHierarchy.Proofs.Comment.Closed
import ModuleHierarchy.Proofs.Token.Alike
import ModuleHierarchy.Proofs.Token.Canonical
import ModuleHierarchy.Proofs.Token.Spelling

namespace ModuleHierarchy

open Lexeme

variable {k : Token.Kind} {line : Nat} {prev : Option Char} {s w rest : List Char} {x : Char}

/-! ### Canonical spellings -/

theorem Lexeme.Canonical.solid (h : Canonical k w) : Text.Solid w :=
  next?_solid h.next?_self

/-- A canonical spelling in front of a blank makes no mark that starts with a slash. -/
theorem Lexeme.Canonical.mark_notInfix_append (h : Canonical k w) (hx : x ≠ ' ')
    (hrest : Ends rest) (hnot : ¬ ['/', x] <:+: rest) : ¬ ['/', x] <:+: w ++ rest := by
  rcases h.eq_slash_or_notMem with rfl | hno
  · rw [List.singleton_append, Comment.mark_infix_cons, not_or]
    exact ⟨fun hhead => hx (hrest x hhead.2), hnot⟩
  · rwa [Comment.mark_infix_append hno]

namespace Token

variable {t : Token} {ts : List Token}

/-! ### Printed tokens -/

/-- Tokens as they are printed behind another one: each with a blank in front. -/
def spaced (ts : List Token) : List Char :=
  ts.flatMap fun t => ' ' :: t.text.toList

theorem spaced_cons (t : Token) (ts : List Token) :
    spaced (t :: ts) = ' ' :: (t.text.toList ++ spaced ts) := by
  simp [spaced]

theorem ends_spaced (ts : List Token) : Ends (spaced ts) := by
  cases ts with
  | nil => simp [Ends, spaced]
  | cons t ts => simp [Ends, spaced_cons]

theorem intercalate_blank_cons (t : Token) (ts : List Token) :
    [' '].intercalate ((t :: ts).map (·.text.toList)) = t.text.toList ++ spaced ts := by
  induction ts generalizing t with
  | nil => simp [spaced]
  | cons u ts ih =>
    have hrest := ih u
    rw [List.map_cons] at hrest ⊢
    rw [List.map_cons, List.intercalate_cons_cons, hrest, spaced_cons, List.append_assoc,
      List.singleton_append]

theorem ofLexeme_kind_text (t : Token) : ofLexeme t.line ⟨t.kind, t.text.toList⟩ = t := by
  rw [ofLexeme, String.ofList_toList]

/-- Behind any character the walk finds the printed tokens. -/
theorem walk_spaced (h : ∀ t ∈ ts, Canonical t.kind t.text.toList ∧ t.line = line)
    (prev : Option Char) : walk line 0 prev (spaced ts) = ts := by
  induction ts generalizing prev with
  | nil => rfl
  | cons t ts ih =>
    obtain ⟨⟨ht, rfl⟩, hts⟩ := List.forall_mem_cons.1 h
    -- the blank in front is passed first, and it is what the token stands behind
    have hnext : next? (some ' ') (t.text.toList ++ spaced ts) = some ⟨t.kind, t.text.toList⟩ :=
      ht.next?_append (by decide) (ends_spaced ts)
    have hblank : isSeparator ' ' = true := by decide
    rw [spaced_cons, walk_cons_separator hblank, walk_of_next? t.line hnext, ih hts,
      ofLexeme_kind_text]

theorem ofChars_append_spaced (ht : Canonical t.kind t.text.toList)
    (hts : ∀ u ∈ ts, Canonical u.kind u.text.toList ∧ u.line = t.line) :
    ofChars t.line (t.text.toList ++ spaced ts) = t :: ts := by
  have hnext : next? none (t.text.toList ++ spaced ts) = some ⟨t.kind, t.text.toList⟩ :=
    ht.next?_append rfl (ends_spaced ts)
  rw [ofChars, walk_of_next? t.line hnext, walk_spaced hts, ofLexeme_kind_text]

/-! ### The line of printed tokens -/

theorem mark_notInfix_spaced (hx : x ≠ ' ') (h : ∀ t ∈ ts, Canonical t.kind t.text.toList) :
    ¬ ['/', x] <:+: spaced ts := by
  induction ts with
  | nil => simp [spaced]
  | cons t ts ih =>
    obtain ⟨ht, hts⟩ := List.forall_mem_cons.1 h
    rw [spaced_cons, Comment.mark_infix_cons, not_or]
    refine ⟨fun hhead => absurd hhead.1 (by decide), ?_⟩
    exact ht.mark_notInfix_append hx (ends_spaced ts) (ih hts)

/-- There is no comment on the line. -/
theorem strip_append_spaced (h : ∀ t ∈ ts, Canonical t.kind t.text.toList)
    (hw : Canonical k w) : Comment.strip (w ++ spaced ts) = w ++ spaced ts := by
  have hno {x : Char} (hx : x ≠ ' ') : ¬ ['/', x] <:+: w ++ spaced ts :=
    hw.mark_notInfix_append hx (ends_spaced ts) (mark_notInfix_spaced hx h)
  exact Comment.strip_eq_self (hno (by decide)) (hno (by decide))

theorem newline_notMem_append_spaced (h : ∀ t ∈ ts, Canonical t.kind t.text.toList)
    (hw : Canonical k w) : '\n' ∉ w ++ spaced ts := by
  have hno {k : Token.Kind} {w : List Char} (hw : Canonical k w) : '\n' ∉ w :=
    fun hmem => absurd (hw.solid _ hmem) (by decide)
  rw [List.mem_append, not_or, spaced, List.mem_flatMap]
  refine ⟨hno hw, ?_⟩
  rintro ⟨t, ht, hmem⟩
  rcases List.mem_cons.1 hmem with hblank | hmem
  · exact absurd hblank (by decide)
  · exact hno (h t ht) hmem

/-- There is no blank behind the last of the printed tokens. -/
theorem getLast?_append_spaced (h : ∀ t ∈ ts, Canonical t.kind t.text.toList)
    (hw : Canonical k w) : (w ++ spaced ts).getLast?.any Text.isBlank = false := by
  induction ts generalizing k w with
  | nil =>
    obtain ⟨c, hc⟩ := Option.isSome_iff_exists.1 (List.getLast?_isSome.2 hw.ne_nil)
    rw [spaced, List.flatMap_nil, List.append_nil, hc]
    exact hw.solid c (List.mem_of_getLast? hc)
  | cons t ts ih =>
    obtain ⟨ht, hts⟩ := List.forall_mem_cons.1 h
    have hne : t.text.toList ++ spaced ts ≠ [] := List.append_ne_nil_of_left_ne_nil ht.ne_nil _
    rw [spaced_cons, ← List.singleton_append, ← List.append_assoc,
      List.getLast?_append_of_ne_nil _ hne]
    exact ih hts ht

/-- There is no blank at the ends of the line. -/
theorem trim_append_spaced (h : ∀ t ∈ ts, Canonical t.kind t.text.toList) (hw : Canonical k w) :
    Text.trim (w ++ spaced ts) = w ++ spaced ts := by
  refine Text.trim_eq_self ?_ (getLast?_append_spaced h hw)
  obtain ⟨c, v, rfl⟩ := List.exists_cons_of_ne_nil hw.ne_nil
  exact hw.solid c List.mem_cons_self

/-- **Printing and reading.**  Tokens in canonical spellings that are printed on the first line,
with a blank between two of them, are read back. -/
theorem ofText_intercalate (ts : List Token)
    (h : ∀ t ∈ ts, Canonical t.kind t.text.toList ∧ t.line = 1) :
    ofText (" ".intercalate (ts.map Token.text)).toList = ts := by
  rw [String.toList_intercalate, List.map_map]
  cases ts with
  | nil => rfl
  | cons t ts =>
    obtain ⟨⟨ht, hline⟩, hts⟩ := List.forall_mem_cons.1 h
    have hcanonical : ∀ u ∈ ts, Canonical u.kind u.text.toList := fun u hu => (hts u hu).1
    have hprinted : " ".toList.intercalate ((t :: ts).map (String.toList ∘ Token.text)) =
        t.text.toList ++ spaced ts := intercalate_blank_cons t ts
    have hofLine : ofLine 1 (t.text.toList ++ spaced ts) = t :: ts := by
      rw [ofLine, strip_append_spaced hcanonical ht, trim_append_spaced hcanonical ht, ← hline]
      exact ofChars_append_spaced ht fun u hu => ⟨hcanonical u hu, hline ▸ (hts u hu).2⟩
    rw [hprinted, ofText, List.splitOn_eq_singleton (newline_notMem_append_spaced hcanonical ht)]
    simpa using hofLine

/-- One token of every shape, among them an identifier that goes on with a reserved word and
slashes and stars that would be comments without the blanks. -/
theorem ofText_intercalate_every_shape :
    let ts : List Token := [⟨.keyword, "end", 1⟩, ⟨.ident, "n$module", 1⟩, ⟨.paramOpen, "#(", 1⟩,
      ⟨.number, "٣7", 1⟩, ⟨.number, "٣'hF_", 1⟩, ⟨.number, "4b1", 1⟩, ⟨.symbol, "/", 1⟩,
      ⟨.symbol, "/", 1⟩, ⟨.symbol, "*", 1⟩, ⟨.symbol, "<=", 1⟩, ⟨.symbol, "<", 1⟩,
      ⟨.symbol, "'é", 1⟩, ⟨.symbol, "\x60endé", 1⟩]
    (∀ t ∈ ts, Canonical t.kind t.text.toList ∧ t.line = 1) ∧
      ofText "end n$module #( ٣7 ٣'hF_ 4b1 / / * <= < 'é \x60endé".toList = ts := by
  intro ts
  have hsized : Canonical .number "٣'hF_".toList :=
    @Canonical.sizedNumber ['٣'] ['\x27'] ['F', '_'] 'h' (by decide) (by decide) (by decide)
      (by decide) (by decide) (by decide)
  have hjoined : Canonical .number "4b1".toList :=
    @Canonical.sizedNumber ['4'] [] ['1'] 'b' (by decide) (by decide) (by decide) (by decide)
      (by decide) (by decide)
  have hts : ∀ t ∈ ts, Canonical t.kind t.text.toList ∧ t.line = 1 := by
    simp only [ts, List.forall_mem_cons, and_true]
    exact ⟨.keyword (by decide), .ident (by decide) (by decide) (by decide), .paramOpen,
      .plainNumber (by decide) (by decide), hsized, hjoined, .punctuation (by decide),
      .punctuation (by decide), .punctuation (by decide), .operator (by decide) (by decide),
      .operator (by decide) (by decide), .quoted (by decide),
      .directive (by decide) (by decide), fun _ h => absurd h List.not_mem_nil⟩
  exact ⟨hts, ofText_intercalate ts hts⟩

end Token

end ModuleHierarchy
