/-
ModuleHierarchy/Proofs/Token/Occurrence.lean

Tokens in their places.  An occurrence is a token together with what stands before it and behind it
on its line.  `Occurrence.walk` is the walk over a line that keeps what it has passed, and without
the surroundings its occurrences are the tokens (`map_token_walk`).

Two facts hold at each step.  The occurrence spells the line, and its token is the lexeme that is
found there (`onLine_of_mem_walk`).  And nothing is passed unseen: right before an occurrence either
the line starts, or another occurrence ends, or there is a character that starts no lexeme
(`preceded_of_mem_ofChars`).
-/
import ModuleHierarchy.Extraction
import ModuleHierarchy.Token.Prefix

namespace ModuleHierarchy

/-- A token with what stands before it and behind it on its line. -/
structure Occurrence where
  before : List Char
  token : Token
  after : List Char
deriving DecidableEq, Repr

namespace Occurrence

variable {line pending : Nat} {passed s : List Char} {o o' : Occurrence}

/-- The line up to the end of the token. -/
def upTo (o : Occurrence) : List Char :=
  o.before ++ o.token.text.toList

/-- The line from the start of the token on. -/
def ahead (o : Occurrence) : List Char :=
  o.token.text.toList ++ o.after

theorem before_append_ahead (o : Occurrence) : o.before ++ o.ahead = o.upTo ++ o.after := by
  rw [ahead, upTo, List.append_assoc]

/-! ### The walk -/

/-- The occurrences from a position on, behind the characters `passed`.  `pending` counts the
characters ahead that belong to an occurrence already found. -/
def walk (line : Nat) : (pending : Nat) → (passed : List Char) → List Char → List Occurrence
  | _, _, [] => []
  | pending + 1, passed, c :: s => walk line pending (passed ++ [c]) s
  | 0, passed, c :: s =>
    match Lexeme.next? passed.getLast? (c :: s) with
    | some l =>
      ⟨passed, Token.ofLexeme line l, (c :: s).drop l.spelling.length⟩ ::
        walk line (l.spelling.length - 1) (passed ++ [c]) s
    | none => walk line 0 (passed ++ [c]) s

/-- The occurrences on a line. -/
def ofChars (line : Nat) (s : List Char) : List Occurrence :=
  walk line 0 [] s

theorem map_token_walk (line pending : Nat) (passed s : List Char) :
    (walk line pending passed s).map token = Token.walk line pending passed.getLast? s := by
  fun_induction walk line pending passed s with
  | case1 => rw [Token.walk, List.map_nil]
  | case2 passed pending c s ih => rw [Token.walk, ih, List.getLast?_concat]
  | case3 passed c s l hl ih =>
    rw [Token.walk, hl, List.map_cons, ih, List.getLast?_concat]
  | case4 passed c s hl ih => rw [Token.walk, hl, ih, List.getLast?_concat]

theorem map_token_ofChars (line : Nat) (s : List Char) :
    (ofChars line s).map token = Token.ofChars line s :=
  map_token_walk line 0 [] s

/-- The occurrences in a text that is read line by line. -/
def ofText (s : List Char) : List Occurrence :=
  ((s.splitOn '\n').zipIdx 1).flatMap fun (l, n) => ofChars n (Text.trim (Comment.strip l))

theorem map_token_ofText (s : List Char) : (ofText s).map token = Token.ofText s := by
  simp only [ofText, List.map_flatMap, map_token_ofChars]
  rfl

/-! ### Where an occurrence stands -/

/-- The occurrence stands on a line, and its token is the lexeme that is found there. -/
structure OnLine (line : Nat) (s : List Char) (o : Occurrence) : Prop where
  spells : o.before ++ o.ahead = s
  found : Lexeme.next? o.before.getLast? o.ahead = some ⟨o.token.kind, o.token.text.toList⟩
  numbered : o.token.line = line

theorem OnLine.ofKind? (h : o.OnLine line s) :
    Lexeme.ofKind? o.before.getLast? o.ahead o.token.kind = some o.token.text.toList :=
  Lexeme.ofKind?_of_next? h.found

theorem onLine_of_next? {l : Lexeme} (h : Lexeme.next? passed.getLast? s = some l) :
    OnLine line (passed ++ s) ⟨passed, Token.ofLexeme line l, s.drop l.spelling.length⟩ := by
  obtain ⟨rest, rfl⟩ := Lexeme.next?_isPrefix h
  rw [List.drop_left]
  refine ⟨?_, ?_, rfl⟩
  · rw [ahead, Token.toList_text_ofLexeme]
  · rw [ahead, Token.toList_text_ofLexeme]
    exact h

theorem onLine_of_mem_walk (h : o ∈ walk line pending passed s) : o.OnLine line (passed ++ s) := by
  fun_induction walk line pending passed s with
  | case1 => cases h
  | case2 passed pending c s ih =>
    rw [List.append_cons]
    exact ih h
  | case3 passed c s l hl ih =>
    rcases List.mem_cons.1 h with rfl | h
    · exact onLine_of_next? hl
    · rw [List.append_cons]
      exact ih h
  | case4 passed c s hl ih =>
    rw [List.append_cons]
    exact ih h

/-- An occurrence in a text stands on the line that its token carries the number of, without the
comments and the blanks at the ends. -/
theorem exists_line_of_mem_ofText (h : o ∈ ofText s) :
    ∃ n l, o.token.line = n + 1 ∧ (s.splitOn '\n')[n]? = some l ∧
      o ∈ ofChars (n + 1) (Text.trim (Comment.strip l)) := by
  obtain ⟨⟨l, k⟩, hline, ho⟩ := List.mem_flatMap.1 h
  obtain ⟨hk, hl⟩ := List.mk_mem_zipIdx_iff_le_and_getElem?_sub.1 hline
  obtain ⟨n, rfl⟩ := Nat.exists_eq_add_of_le' hk
  exact ⟨n, l, (onLine_of_mem_walk ho).numbered, hl, ho⟩

/-- What stands right before an occurrence; `os` are the occurrences of the line. -/
inductive Preceded (os : List Occurrence) (o : Occurrence) : Prop
  | start (hbefore : o.before = [])
  | token (o' : Occurrence) (hmem : o' ∈ os) (hend : o'.upTo = o.before)
  /-- A character that starts no lexeme. -/
  | dropped (p : List Char) (c : Char) (hbefore : o.before = p ++ [c])
      (hnone : Lexeme.next? p.getLast? (c :: o.ahead) = none)

theorem Preceded.cons {os : List Occurrence} (h : Preceded os o) : Preceded (o' :: os) o := by
  cases h with
  | start hbefore => exact .start hbefore
  | token o'' hmem hend => exact .token o'' (List.mem_cons_of_mem o' hmem) hend
  | dropped p c hbefore hnone => exact .dropped p c hbefore hnone

/-- Nothing stands between the position where the pending characters end and an occurrence, or what
stands there is seen. -/
theorem before_eq_or_preceded (h : o ∈ walk line pending passed s) :
    o.before = passed ++ s.take pending ∨ Preceded (walk line pending passed s) o := by
  fun_induction walk line pending passed s with
  | case1 => cases h
  | case2 passed pending c s ih =>
    rw [List.take_succ_cons, List.append_cons]
    exact ih h
  | case3 passed c s l hl ih =>
    rcases List.mem_cons.1 h with rfl | h
    · exact .inl (List.append_nil passed).symm
    rcases ih h with hbefore | hpreceded
    · -- the pending characters are the rest of the lexeme found here
      refine .inr (.token _ List.mem_cons_self ?_)
      rw [upTo, hbefore, Token.toList_text_ofLexeme, List.append_assoc, List.singleton_append,
        ← Lexeme.next?_spelling_eq_cons hl]
    · exact .inr hpreceded.cons
  | case4 passed c s hl ih =>
    rcases ih h with hbefore | hpreceded
    · rw [List.take_zero, List.append_nil] at hbefore
      have hspells := (onLine_of_mem_walk h).spells
      rw [hbefore] at hspells
      refine .inr (.dropped passed c hbefore ?_)
      rwa [List.append_cancel_left hspells]
    · exact .inr hpreceded

theorem preceded_of_mem_ofChars (h : o ∈ ofChars line s) : Preceded (ofChars line s) o := by
  rcases before_eq_or_preceded h with hbefore | hpreceded
  · exact .start hbefore
  · exact hpreceded

end Occurrence

/-! ### Occurrences in a source -/

namespace Source

variable {s : Source} {o : Occurrence}

/-- The occurrences of the tokens of a source, in order. -/
def occurrences (s : Source) : List Occurrence :=
  ((s.code.splitOn '\n').zipIdx 1).flatMap fun (l, n) =>
    Occurrence.ofChars n (Text.trim (Comment.strip l))

theorem map_token_occurrences (s : Source) : s.occurrences.map Occurrence.token = s.tokens :=
  Occurrence.map_token_ofText s.code

/-- The line of the code that a token with the given number stands on, as it is read. -/
def codeLine? (s : Source) (n : Nat) : Option (List Char) :=
  (s.code.splitOn '\n')[n - 1]?.map fun l => Text.trim (Comment.strip l)

theorem exists_codeLine_of_mem_occurrences (h : o ∈ s.occurrences) :
    ∃ l, s.codeLine? o.token.line = some l ∧ o ∈ Occurrence.ofChars o.token.line l := by
  obtain ⟨n, l, hn, hl, ho⟩ := Occurrence.exists_line_of_mem_ofText h
  rw [hn]
  exact ⟨Text.trim (Comment.strip l), by rw [codeLine?, Nat.add_sub_cancel, hl, Option.map_some], ho⟩

end Source

end ModuleHierarchy
