/-
ModuleHierarchy/Proofs/Token/Line.lean

Tokens line by line.  No lexeme reaches over a separator and none is cut short by the end of a text,
so a text behind a separator has the tokens that it has alone:

    ofChars line (w ++ c :: rest) = ofChars line w ++ ofChars line rest    (`ofChars_append_separator`).

A newline is a separator.  Hence the tokens of a text are those of its lines, one line after the
other (`ofChars_eq_flatMap_lines`), where an empty line has none and the blanks at the ends of a line
are dropped as they are elsewhere.  Apart from their numbers these are the tokens of the text that is
read line by line, as long as no line holds a comment (`map_toLexeme_ofText`).

The number of a line is only copied into the tokens (`walk_add`).
-/
import ModuleHierarchy.Proofs.Token.Alike

namespace ModuleHierarchy.Token

open Lexeme

variable {line pending : Nat} {prev : Option Char} {c : Char} {s w : List Char}

/-! ### Moving tokens down -/

/-- The token, further down by a number of lines. -/
def moveDown (n : Nat) (t : Token) : Token :=
  { t with line := t.line + n }

@[simp] theorem moveDown_zero : moveDown 0 = id := rfl

theorem moveDown_moveDown (m n : Nat) : moveDown m ∘ moveDown n = moveDown (n + m) := by
  funext t
  rw [Function.comp_apply, moveDown, moveDown, moveDown, Nat.add_assoc]

theorem walk_add (line n pending : Nat) (prev : Option Char) (s : List Char) :
    walk (line + n) pending prev s = (walk line pending prev s).map (moveDown n) := by
  fun_induction walk line pending prev s with
  | case1 => rfl
  | case2 prev pending c s ih => rw [walk, ih]
  | case3 prev c s l hl ih =>
    rw [walk, hl, List.map_cons, ← ih]
    rfl
  | case4 prev c s hl ih => rw [walk, hl, ih]

theorem ofLine_add (line n : Nat) (s : List Char) :
    ofLine (line + n) s = (ofLine line s).map (moveDown n) :=
  walk_add line n 0 none _

/-- The same lines, numbered from further down, have the same tokens further down. -/
theorem flatMap_ofLine_add (ls : List (List Char)) (k n : Nat) :
    ((ls.zipIdx (k + n)).flatMap fun (l, i) => ofLine i l) =
      ((ls.zipIdx k).flatMap fun (l, i) => ofLine i l).map (moveDown n) := by
  induction ls generalizing k with
  | nil => rfl
  | cons l ls ih =>
    rw [List.zipIdx_cons, List.zipIdx_cons, List.flatMap_cons, List.flatMap_cons,
      List.map_append, ← ofLine_add, Nat.add_right_comm, ih (k + 1)]

/-! ### Tokens without their numbers -/

/-- The kind and the spelling of a token. -/
def toLexeme (t : Token) : Lexeme :=
  ⟨t.kind, t.text.toList⟩

theorem toLexeme_comp_moveDown (n : Nat) : toLexeme ∘ moveDown n = toLexeme := rfl

/-- The same lexemes are found, whatever the number of the line. -/
theorem map_toLexeme_ofChars (m n : Nat) (s : List Char) :
    (ofChars m s).map toLexeme = (ofChars n s).map toLexeme := by
  have hzero (k : Nat) : (ofChars k s).map toLexeme = (ofChars 0 s).map toLexeme := by
    have hadd : ofChars (0 + k) s = (ofChars 0 s).map (moveDown k) := walk_add 0 k 0 none s
    rw [Nat.zero_add] at hadd
    rw [hadd, List.map_map, toLexeme_comp_moveDown]
  rw [hzero m, hzero n]

/-! ### Separated texts -/

/-- Up to a separator the walk goes as if the text ended there, and behind it starts afresh. -/
theorem walk_append_separator (hc : isSeparator c = true) (rest : List Char)
    (hpending : pending ≤ w.length) :
    walk line pending prev (w ++ c :: rest) = walk line pending prev w ++ ofChars line rest := by
  fun_induction walk line pending prev w with
  | case1 pending prev =>
    obtain rfl := Nat.le_zero.1 hpending
    rw [List.nil_append, List.nil_append, walk_cons_separator hc]
    have hword : (some c).any Text.isWordChar = none.any Text.isWordChar := isWordChar_eq_false hc
    exact walk_prev_congr hword rest
  | case2 prev pending d w ih =>
    exact ih (Nat.le_of_succ_le_succ hpending)
  | case3 prev d w l hl ih =>
    -- the lexeme lies in front of the separator
    have hnext : next? prev (d :: (w ++ c :: rest)) = some l :=
      (next?_append (stops_cons hc rest) prev (d :: w)).trans hl
    have hlength : l.spelling.length ≤ w.length + 1 := (next?_isPrefix hl).length_le
    rw [List.cons_append, walk, hnext, List.cons_append]
    exact congrArg (ofLexeme line l :: ·) (ih (Nat.sub_le_of_le_add hlength))
  | case4 prev d w hnone ih =>
    have hnext : next? prev (d :: (w ++ c :: rest)) = none :=
      (next?_append (stops_cons hc rest) prev (d :: w)).trans hnone
    rw [List.cons_append, walk, hnext]
    exact ih (Nat.zero_le _)

theorem ofChars_append_separator (hc : isSeparator c = true) (line : Nat) (w rest : List Char) :
    ofChars line (w ++ c :: rest) = ofChars line w ++ ofChars line rest :=
  walk_append_separator hc rest (Nat.zero_le _)

theorem ofChars_intercalate (line : Nat) (ls : List (List Char)) :
    ofChars line (['\n'].intercalate ls) = ls.flatMap (ofChars line) := by
  induction ls with
  | nil => rfl
  | cons l ls ih =>
    cases ls with
    | nil => rw [List.intercalate_singleton, List.flatMap_singleton]
    | cons m ls =>
      have hnewline : isSeparator '\n' = true := by decide
      rw [List.intercalate_cons_cons, List.append_assoc, List.singleton_append,
        ofChars_append_separator hnewline, ih, ← List.flatMap_cons]

/-- The tokens of a text are the tokens of its lines. -/
theorem ofChars_eq_flatMap_lines (line : Nat) (s : List Char) :
    ofChars line s = (s.splitOn '\n').flatMap (ofChars line) := by
  rw [← ofChars_intercalate, List.intercalate_splitOn]

/-! ### Line by line -/

/-- **Reading line by line changes no token.**  Of a text none of whose lines changes when comments
are removed, the same lexemes are found whether it is read line by line or as one stretch, under
whatever number. -/
theorem map_toLexeme_ofText (h : ∀ l ∈ s.splitOn '\n', Comment.strip l = l) (line : Nat) :
    (ofText s).map toLexeme = (ofChars line s).map toLexeme := by
  have hline : ∀ p ∈ (s.splitOn '\n').zipIdx 1,
      (ofLine p.2 p.1).map toLexeme = (ofChars line p.1).map toLexeme := by
    intro p hp
    have hmem : p.1 ∈ s.splitOn '\n' := List.fst_mem_of_mem_zipIdx hp
    rw [ofLine_eq (Text.newline_notMem_of_mem_lines hmem), h p.1 hmem]
    exact map_toLexeme_ofChars p.2 line p.1
  calc (ofText s).map toLexeme
      = ((s.splitOn '\n').zipIdx 1).flatMap fun p => (ofLine p.2 p.1).map toLexeme :=
        List.map_flatMap
    _ = ((s.splitOn '\n').zipIdx 1).flatMap fun p => (ofChars line p.1).map toLexeme :=
        List.flatMap_congr hline
    _ = (((s.splitOn '\n').zipIdx 1).map Prod.fst).flatMap fun l =>
          (ofChars line l).map toLexeme := by rw [List.flatMap_map]
    _ = ((s.splitOn '\n').flatMap (ofChars line)).map toLexeme := by
        rw [List.zipIdx_map_fst, List.map_flatMap]
    _ = (ofChars line s).map toLexeme := by rw [← ofChars_eq_flatMap_lines]

/-- Blanks at the ends of lines, an empty line, and a mark that opens a comment on one line and is
closed on another only. -/
theorem map_toLexeme_ofText_blanks :
    let s := "\t8'h\r\n\n module \u00a0/* \n\u2003*/f".toList
    let ls : List Lexeme :=
      [⟨.number, "8".toList⟩, ⟨.symbol, "'h".toList⟩, ⟨.keyword, "module".toList⟩,
        ⟨.symbol, "/".toList⟩, ⟨.symbol, "*".toList⟩, ⟨.symbol, "*".toList⟩,
        ⟨.symbol, "/".toList⟩, ⟨.ident, "f".toList⟩]
    (∀ l ∈ s.splitOn '\n', Comment.strip l = l) ∧ (ofText s).map toLexeme = ls ∧
      (ofChars 7 s).map toLexeme = ls := by
  intro s ls
  have hstrip : ∀ l ∈ s.splitOn '\n', Comment.strip l = l := by decide +kernel
  have htext : (ofText s).map toLexeme = ls := by decide +kernel
  exact ⟨hstrip, htext, (map_toLexeme_ofText hstrip 7).symm.trans htext⟩

end ModuleHierarchy.Token
