/-
ModuleHierarchy/Proofs/Token/Cursor.lean

The walk over a line by byte indices.  A cursor has the line and the byte index of the next
character.  It asks for the sizes of lexemes at its place, cuts out the spelling of the first one
and moves behind it; where there is none it moves by the size of a character.

A cursor that starts on a boundary stays on boundaries (`exists_next`), so no slice leaves the line
or splits a character.  It moves ahead at every step, so the walk ends, and there are no more tokens
than bytes (`length_tokens_le`).  The tokens are those that the walk over the characters finds:

    tokens ⟨line, number, 0⟩ = .ok (ofChars number line.toList)                 (`tokens_eq`).
-/
import ModuleHierarchy.Proofs.Comment.Slice
import ModuleHierarchy.Proofs.Token.Alike
import ModuleHierarchy.Proofs.Token.Slice

namespace ModuleHierarchy

open Text

/-! ### The kinds in turn -/

namespace Lexeme

/-- The kinds in the order in which they are tried. -/
def kinds : List Token.Kind :=
  [.keyword, .paramOpen, .ident, .number, .symbol]

theorem next?_eq_findSome? (prev : Option Char) (s : List Char) :
    next? prev s = kinds.findSome? fun k => (ofKind? prev s k).map (⟨k, ·⟩) := by
  have hcons (k : Token.Kind) (ks : List Token.Kind) (f : Token.Kind → Option Lexeme) :
      (k :: ks).findSome? f = (f k).or (ks.findSome? f) := by
    rw [List.findSome?_cons]
    cases f k <;> rfl
  simp only [kinds, hcons, List.findSome?_nil, Option.or_none]
  rfl

end Lexeme

/-- A place on a line: the byte index of the next character.  The number of the line is passed on to
its tokens. -/
structure Cursor where
  line : String
  number : Nat
  pos : Nat
deriving DecidableEq, Repr

namespace Cursor

variable {c c' : Cursor} {t : Token} {passed ahead : List Char} {k : Token.Kind} {n : Nat}

/-- The kind and the size of the lexeme at the cursor. -/
def lexeme? (c : Cursor) : Except BadSlice (Option (Token.Kind × Nat)) := do
  let rest ← sliceFrom c.line c.pos
  let before ← sliceTo c.line c.pos
  Lexeme.kinds.findSomeM? fun k =>
    return (← Lexeme.sizeOfKind? k before.toList.getLast? rest).map (k, ·)

/-- How far to move where no lexeme starts. -/
def skip (rest : String) : Nat :=
  rest.toList.head?.elim 1 Char.utf8Size

theorem skip_pos (rest : String) : 0 < skip rest := by
  rw [skip]
  cases rest.toList with
  | nil => exact Nat.one_pos
  | cons c s => exact c.utf8Size_pos

/-- The next token and the cursor behind it, if there is another token. -/
def next (c : Cursor) : Except BadSlice (Option (Token × Cursor)) :=
  if _h : c.pos < c.line.utf8ByteSize then
    match c.lexeme? with
    | .error e => .error e
    | .ok (some (kind, len)) => do
      let text ← slice c.line c.pos (c.pos + len)
      return some (⟨kind, text, c.number⟩, { c with pos := c.pos + len })
    | .ok none =>
      match sliceFrom c.line c.pos with
      | .error e => .error e
      | .ok rest => next { c with pos := c.pos + skip rest }
  else .ok none
termination_by c.line.utf8ByteSize - c.pos
decreasing_by
  have hskip := skip_pos rest
  show c.line.utf8ByteSize - (c.pos + skip rest) < _
  omega

theorem lexeme?_eq {rest before : String} (hrest : sliceFrom c.line c.pos = .ok rest)
    (hbefore : sliceTo c.line c.pos = .ok before) :
    c.lexeme? = .ok ((Lexeme.next? before.toList.getLast? rest.toList).map
      fun l => (l.kind, size l.spelling)) := by
  have hpure : (fun k => return (← Lexeme.sizeOfKind? k before.toList.getLast? rest).map (k, ·) :
      Token.Kind → Except BadSlice (Option (Token.Kind × Nat))) = fun k =>
        pure ((Lexeme.ofKind? before.toList.getLast? rest.toList k).map fun w => (k, size w)) := by
    funext k
    rw [Lexeme.sizeOfKind?_eq, ok_bind, Option.map_map]
    rfl
  rw [lexeme?, hrest, ok_bind, hbefore, ok_bind, hpure, List.findSomeM?_pure,
    Lexeme.next?_eq_findSome?, List.map_findSome?]
  simp only [Function.comp_def, Option.map_map]
  rfl

theorem pos_of_lexeme? (h : c.lexeme? = .ok (some (k, n))) : 0 < n := by
  obtain ⟨rest, hrest, hbind⟩ := exists_ok_of_bind h
  obtain ⟨before, hbefore, -⟩ := exists_ok_of_bind hbind
  rw [lexeme?_eq hrest hbefore] at h
  obtain ⟨l, hl, heq⟩ := Option.map_eq_some_iff.1 (Except.ok.inj h)
  obtain ⟨-, rfl⟩ := Prod.mk.inj heq
  exact size_pos (Lexeme.next?_ne_nil hl)

theorem lt_of_next (h : c.next = .ok (some (t, c'))) :
    c'.line = c.line ∧ c.pos < c'.pos ∧ c.pos < c.line.utf8ByteSize := by
  fun_induction next c with
  | case1 c hlt e hlexeme => cases h
  | case2 c hlt kind len hlexeme =>
    obtain ⟨text, -, hnext⟩ := exists_ok_of_bind h
    obtain ⟨-, rfl⟩ := Prod.mk.inj (Option.some.inj (Except.ok.inj hnext))
    exact ⟨rfl, Nat.lt_add_of_pos_right (pos_of_lexeme? hlexeme), hlt⟩
  | case3 c hlt hlexeme e hrest => cases h
  | case4 c hlt hlexeme rest hrest ih =>
    obtain ⟨hline, hpos, -⟩ := ih h
    exact ⟨hline, Nat.lt_of_le_of_lt (Nat.le_add_right _ _) hpos, hlt⟩
  | case5 c hge => cases h

/-- The tokens from the cursor on. -/
def tokens (c : Cursor) : Except BadSlice (List Token) :=
  match _hnext : c.next with
  | .error e => .error e
  | .ok none => .ok []
  | .ok (some (t, c')) => do
    let ts ← c'.tokens
    return t :: ts
termination_by c.line.utf8ByteSize - c.pos
decreasing_by
  obtain ⟨hline, hpos, hlt⟩ := lt_of_next _hnext
  rw [hline]
  omega

theorem length_tokens_le {ts : List Token} (h : c.tokens = .ok ts) :
    ts.length ≤ c.line.utf8ByteSize - c.pos := by
  fun_induction tokens c generalizing ts with
  | case1 c e hnext => cases h
  | case2 c hnext =>
    obtain rfl := Except.ok.inj h
    exact Nat.zero_le _
  | case3 c t c' hnext ih =>
    obtain ⟨us, hus, htokens⟩ := exists_ok_of_bind h
    obtain rfl := Except.ok.inj htokens
    obtain ⟨hline, hpos, hlt⟩ := lt_of_next hnext
    have hle := ih hus
    rw [hline] at hle
    rw [List.length_cons]
    omega

/-! ### On boundaries -/

/-- The cursor stands between some characters of its line. -/
structure At (c : Cursor) (passed ahead : List Char) : Prop where
  line : c.line.toList = passed ++ ahead
  pos : c.pos = size passed

theorem exists_at (h : OnBoundary c.line c.pos) : ∃ passed ahead, c.At passed ahead := by
  obtain ⟨passed, ahead, hline, hpos⟩ := onBoundary_iff.1 h
  exact ⟨passed, ahead, hline, hpos⟩

theorem At.onBoundary (h : c.At passed ahead) : OnBoundary c.line c.pos :=
  onBoundary_iff.2 ⟨passed, ahead, h.line, h.pos⟩

theorem At.lexeme?_eq (h : c.At passed ahead) :
    c.lexeme? = .ok ((Lexeme.next? passed.getLast? ahead).map
      fun l => (l.kind, size l.spelling)) := by
  have hrest := sliceFrom_eq h.line
  have hbefore := sliceTo_eq h.line
  rw [← h.pos] at hrest hbefore
  rw [Cursor.lexeme?_eq hrest hbefore, String.toList_ofList, String.toList_ofList]

theorem At.moved {w : List Char} (h : c.At passed (w ++ ahead)) :
    At { c with pos := size (passed ++ w) } (passed ++ w) ahead :=
  ⟨h.line.trans (List.append_assoc _ _ _).symm, rfl⟩

theorem At.lt {d : Char} (h : c.At passed (d :: ahead)) : c.pos < c.line.utf8ByteSize := by
  rw [utf8ByteSize_eq_size, h.line, size_append, h.pos]
  exact Nat.lt_add_of_pos_right (size_pos (List.cons_ne_nil d ahead))

theorem At.next_eq_none (h : c.At passed []) : c.next = .ok none := by
  have hend : c.pos = c.line.utf8ByteSize := by
    rw [utf8ByteSize_eq_size, h.line, List.append_nil, h.pos]
  rw [next, dif_neg (Nat.not_lt_of_le (Nat.le_of_eq hend.symm))]

/-- A character that starts no lexeme is passed. -/
theorem At.next_eq_next {d : Char} (h : c.At passed (d :: ahead))
    (hnone : Lexeme.next? passed.getLast? (d :: ahead) = none) :
    c.next = ({ c with pos := size (passed ++ [d]) } : Cursor).next := by
  have hlexeme : c.lexeme? = .ok none := by
    rw [h.lexeme?_eq, hnone]
    rfl
  have hrest : sliceFrom c.line c.pos = .ok (String.ofList (d :: ahead)) := by
    rw [h.pos]
    exact sliceFrom_eq h.line
  have hskip : c.pos + skip (String.ofList (d :: ahead)) = size (passed ++ [d]) := by
    rw [skip, String.toList_ofList, h.pos, size_append]
    rfl
  rw [next, dif_pos h.lt]
  simp only [hlexeme, hrest, hskip]

/-- The spelling of a lexeme is cut out, and the cursor moves behind it. -/
theorem At.next_eq_token {w : List Char} (h : c.At passed (w ++ ahead))
    (hsome : Lexeme.next? passed.getLast? (w ++ ahead) = some ⟨k, w⟩) :
    c.next = .ok (some (Token.ofLexeme c.number ⟨k, w⟩, { c with pos := size (passed ++ w) })) := by
  have hlexeme : c.lexeme? = .ok (some (k, size w)) := by
    rw [h.lexeme?_eq, hsome]
    rfl
  have htext : slice c.line c.pos (c.pos + size w) = .ok (String.ofList w) := by
    rw [h.pos]
    exact slice_eq (h.line.trans (List.append_assoc _ _ _).symm)
  have hlt : c.pos < c.line.utf8ByteSize := by
    obtain ⟨d, w, rfl⟩ := List.exists_cons_of_ne_nil (Lexeme.next?_ne_nil hsome)
    exact h.lt
  rw [next, dif_pos hlt]
  simp only [hlexeme, htext, ok_bind, size_append, ← h.pos]
  rfl

/-- The cursor and the walk over the characters agree on what is ahead: both find no token, or both
find the same one and go on behind the same characters. -/
theorem At.next_cases (h : c.At passed ahead) :
    (c.next = .ok none ∧ Token.walk c.number 0 passed.getLast? ahead = []) ∨
      ∃ t passed' ahead', c.next = .ok (some (t, { c with pos := size passed' })) ∧
        At { c with pos := size passed' } passed' ahead' ∧
        Token.walk c.number 0 passed.getLast? ahead =
          t :: Token.walk c.number 0 passed'.getLast? ahead' := by
  -- the cursor passes what starts no lexeme within one step, the walk character by character
  induction ahead generalizing c passed with
  | nil => exact .inl ⟨h.next_eq_none, rfl⟩
  | cons d s ih =>
    cases hnext : Lexeme.next? passed.getLast? (d :: s) with
    | none =>
      have hmoved := ih (At.moved (w := [d]) h)
      rw [List.getLast?_concat] at hmoved
      rw [h.next_eq_next hnext, Token.walk, hnext]
      exact hmoved
    | some l =>
      obtain ⟨k, w⟩ := l
      obtain ⟨rest, hrest⟩ := Lexeme.next?_isPrefix hnext
      have hne : w ≠ [] := Lexeme.next?_ne_nil hnext
      replace hrest : w ++ rest = d :: s := hrest
      rw [← hrest] at h hnext ⊢
      refine .inr ⟨_, passed ++ w, rest, h.next_eq_token hnext, h.moved, ?_⟩
      rw [Token.walk_of_next? c.number hnext, List.getLast?_append_of_ne_nil passed hne]

theorem At.tokens_eq (h : c.At passed ahead) :
    c.tokens = .ok (Token.walk c.number 0 passed.getLast? ahead) := by
  fun_induction tokens c generalizing passed ahead with
  | case1 c e hnext =>
    rcases h.next_cases with ⟨hnone, -⟩ | ⟨t, passed', ahead', hsome, -, -⟩
    · exact absurd (hnext.symm.trans hnone) (by simp)
    · exact absurd (hnext.symm.trans hsome) (by simp)
  | case2 c hnext =>
    rcases h.next_cases with ⟨-, hwalk⟩ | ⟨t, passed', ahead', hsome, -, -⟩
    · rw [hwalk]
    · exact absurd (hnext.symm.trans hsome) (by simp)
  | case3 c t c' hnext ih =>
    rcases h.next_cases with ⟨hnone, -⟩ | ⟨u, passed', ahead', hsome, hat, hwalk⟩
    · exact absurd (hnext.symm.trans hnone) (by simp)
    · cases hnext.symm.trans hsome
      rw [ih hat, hwalk]
      rfl

theorem tokens_eq (line : String) (number : Nat) :
    tokens ⟨line, number, 0⟩ = .ok (Token.ofChars number line.toList) :=
  have hstart : At ⟨line, number, 0⟩ [] line.toList := ⟨rfl, rfl⟩
  hstart.tokens_eq

theorem yields_lexeme? (h : OnBoundary c.line c.pos) :
    Yields c.lexeme? fun x? => ∀ x ∈ x?, 1 ≤ x.2 ∧ OnBoundary c.line (c.pos + x.2) := by
  obtain ⟨passed, ahead, hat⟩ := exists_at h
  refine ⟨_, hat.lexeme?_eq, fun x hx => ?_⟩
  obtain ⟨l, hl, rfl⟩ := Option.map_eq_some_iff.1 hx
  obtain ⟨rest, hrest⟩ := Lexeme.next?_isPrefix hl
  have hline : c.line.toList = passed ++ l.spelling ++ rest := by
    rw [hat.line, ← hrest, List.append_assoc]
  refine ⟨size_pos (Lexeme.next?_ne_nil hl), ?_⟩
  rw [hat.pos, ← size_append]
  exact onBoundary_size hline

/-- A step keeps the cursor on a boundary and moves it ahead. -/
theorem yields_next (h : OnBoundary c.line c.pos) :
    Yields c.next fun x? => ∀ x ∈ x?,
      x.2.line = c.line ∧ c.pos < x.2.pos ∧ OnBoundary c.line x.2.pos := by
  obtain ⟨passed, ahead, hat⟩ := exists_at h
  rcases hat.next_cases with ⟨hnone, -⟩ | ⟨t, passed', ahead', hsome, hat', -⟩
  · exact ⟨none, hnone, fun x hx => absurd hx (Option.not_mem_none x)⟩
  · refine ⟨_, hsome, fun x hx => ?_⟩
    obtain rfl := Option.some.inj hx
    exact ⟨rfl, (lt_of_next hsome).2.1, hat'.onBoundary⟩

end Cursor

/-! ### All slices -/

/-- **No slice leaves the text or splits a character, and every loop advances.**  For every text
all slices of both loops over comments, of the functions for each kind of token and of the walk are
defined.  A round that is not the last leaves a shorter text, and the loops end with the text
without comments.  A lexeme has at least one byte and fits the text, behind any boundary.  A cursor
on a boundary stays on boundaries and moves ahead with every token, and the walk ends with at most
as many tokens as there are bytes. -/
theorem slices_defined (text : String) :
    (∀ l ∈ [Comment.blockLoop, Comment.lineLoop],
      Yields (l.round text) fun r? => ∀ r ∈ r?, r.2.utf8ByteSize < text.utf8ByteSize) ∧
    Yields (Comment.blockLoop.run "" text)
      (fun out => out.toList = Comment.stripBlocks text.toList) ∧
    Yields (Comment.lineLoop.run "" text)
      (fun out => out.toList = Comment.stripLines text.toList) ∧
    (∀ k prev, Yields (Lexeme.sizeOfKind? k prev text) fun n? => ∀ n ∈ n?, Lexeme.Fits text n) ∧
    (∀ number pos, OnBoundary text pos →
      Yields (Cursor.lexeme? ⟨text, number, pos⟩)
        (fun x? => ∀ x ∈ x?, 1 ≤ x.2 ∧ OnBoundary text (pos + x.2)) ∧
      Yields (Cursor.next ⟨text, number, pos⟩)
        fun x? => ∀ x ∈ x?, x.2.line = text ∧ pos < x.2.pos ∧ OnBoundary text x.2.pos) ∧
    ∀ number, Yields (Cursor.tokens ⟨text, number, 0⟩) fun ts =>
      ts = Token.ofChars number text.toList ∧ ts.length ≤ text.utf8ByteSize := by
  refine ⟨?_, ?_, ?_, fun k prev => Lexeme.yields_sizeOfKind? k prev text, ?_, ?_⟩
  · intro l hl
    rcases List.mem_pair.1 hl with rfl | rfl
    · exact (Comment.round_blockRound text).yields
    · exact (Comment.round_lineRound text).yields
  · exact ⟨_, Comment.run_blockLoop text, String.toList_ofList⟩
  · exact ⟨_, Comment.run_lineLoop text, String.toList_ofList⟩
  · intro number pos hpos
    exact ⟨Cursor.yields_lexeme? hpos, Cursor.yields_next hpos⟩
  · intro number
    have htokens := Cursor.tokens_eq text number
    exact ⟨_, htokens, rfl, Cursor.length_tokens_le htokens⟩

/-- A literal with a digit of another script, and an apostrophe with a letter of two bytes. -/
theorem slices_defined_beyond_ascii :
    let text := "\u0663'h1f '\u00e9/*\u00e9\n*/\u0663"
    let ts : List Token := [⟨.number, "\u0663'h1f", 1⟩, ⟨.symbol, "'\u00e9", 1⟩, ⟨.symbol, "/", 1⟩,
      ⟨.symbol, "*", 1⟩, ⟨.symbol, "*", 1⟩, ⟨.symbol, "/", 1⟩, ⟨.number, "\u0663", 1⟩]
    ¬ OnBoundary text 1 ∧ OnBoundary text 6 ∧
      Yields (Comment.blockLoop.run "" text) (fun out => out = "\u0663'h1f '\u00e9\n\u0663") ∧
      Yields (Cursor.next ⟨text, 1, 6⟩) (fun x? => ∀ x ∈ x?, 6 < x.2.pos) ∧
      Yields (Cursor.tokens ⟨text, 1, 0⟩) (fun us => us = ts) := by
  intro text ts
  have hboundary : OnBoundary text 6 := by decide +kernel
  obtain ⟨-, ⟨out, hrun, hout⟩, -, -, hnext, htokens⟩ := slices_defined text
  obtain ⟨-, x?, hx?, hpos⟩ := hnext 1 6 hboundary
  obtain ⟨us, hus, heq, -⟩ := htokens 1
  refine ⟨by decide +kernel, hboundary, ⟨out, hrun, ?_⟩, ⟨x?, hx?, fun x hx => (hpos x hx).2.1⟩,
    ⟨us, hus, heq.trans ?_⟩⟩
  · refine String.toList_inj.1 (hout.trans ?_)
    decide +kernel
  · decide +kernel

end ModuleHierarchy
