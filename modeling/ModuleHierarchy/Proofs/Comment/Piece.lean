/-
ModuleHierarchy/Proofs/Comment/Piece.lean

The removal of comments against a scan that reads the text once.  The scan cuts the text into
`pieces`, from the left to the right: at each position it takes a line comment, or a block comment
that is closed, or else one character.  So a block comment is one only outside of line comments, and
a line comment only outside of block comments.  Removing comments in two runs over the text does not
ask for that: the first run takes `/*` inside a line comment for the start of a block comment.

Where no line comment holds `/*`, both agree (`strip_eq_flatMap_code`).  The point is that taking
away a block comment brings no two slashes together: a slash in front of `/*` starts a line comment,
which then holds `/*`.
-/
import Mathlib.Data.List.TakeWhile
import ModuleHierarchy.Proofs.Comment.Closed

namespace ModuleHierarchy.Comment

variable {b r s t : List Char} {c : Char}

/-! ### The scan -/

/-- A piece of a text. -/
inductive Piece where
  /-- A character outside of comments. -/
  | char (c : Char)
  /-- A line comment, with what stands behind its two slashes. -/
  | line (s : List Char)
  /-- A block comment, with what stands between its marks. -/
  | block (s : List Char)
deriving DecidableEq, Repr

/-- What a piece is spelled with. -/
def Piece.source : Piece → List Char
  | char c => [c]
  | line s => slashes ++ s
  | block s => opener ++ s ++ closer

/-- What is left of a piece when comments are removed. -/
def Piece.code : Piece → List Char
  | char c => [c]
  | line _ => []
  | block s => s.filter (· == '\n')

/-- What stands in front of the first closing mark and what stands behind it, if there is one. -/
def cutAtCloser? : List Char → Option (List Char × List Char)
  | '*' :: '/' :: s => some ([], s)
  | c :: s => (cutAtCloser? s).map fun cut => (c :: cut.1, cut.2)
  | [] => none

theorem cutAtCloser?_eq_some (h : cutAtCloser? s = some (b, r)) :
    s = b ++ closer ++ r ∧ ¬ closer <:+: b := by
  fun_induction cutAtCloser? s generalizing b with
  | case1 s =>
    obtain ⟨rfl, rfl⟩ := Prod.mk.inj (Option.some.inj h)
    exact ⟨rfl, by decide⟩
  | case2 c s hc ih =>
    obtain ⟨⟨b, r⟩, hcut, heq⟩ := Option.map_eq_some_iff.1 h
    obtain ⟨rfl, rfl⟩ := Prod.mk.inj heq
    obtain ⟨rfl, hno⟩ := ih hcut
    refine ⟨rfl, ?_⟩
    show ¬ closer <:+: c :: b
    rw [List.infix_cons_iff, not_or]
    refine ⟨mark_notPrefix fun u hstar hu => hc (u ++ closer ++ r) hstar ?_, hno⟩
    rw [hu]
    rfl
  | case3 => cases h

theorem cutAtCloser?_eq_none (h : cutAtCloser? s = none) : ¬ closer <:+: s := by
  fun_induction cutAtCloser? s with
  | case1 s => cases h
  | case2 c s hc ih =>
    rw [List.infix_cons_iff, not_or]
    exact ⟨mark_notPrefix hc, ih (Option.map_eq_none_iff.1 h)⟩
  | case3 => decide

/-- The pieces of a text.  An opening mark that no closing mark follows is cut into characters. -/
def pieces : List Char → List Piece
  | '/' :: '/' :: s => .line (s.takeWhile (· ≠ '\n')) :: pieces (s.dropWhile (· ≠ '\n'))
  | '/' :: '*' :: s =>
    match _hcut : cutAtCloser? s with
    | some (body, rest) => .block body :: pieces rest
    | none => .char '/' :: pieces ('*' :: s)
  | c :: s => .char c :: pieces s
  | [] => []
termination_by s => s.length
decreasing_by
  · have hrest := (List.dropWhile_sublist (· ≠ '\n') (l := s)).length_le
    simp only [List.length_cons]
    omega
  · obtain ⟨rfl, -⟩ := cutAtCloser?_eq_some _hcut
    simp only [List.length_append, List.length_cons]
    omega
  · simp
  · simp

/-- The pieces spell the text, so the scan loses nothing and reads nothing twice. -/
theorem flatMap_source_pieces (s : List Char) : (pieces s).flatMap Piece.source = s := by
  fun_induction pieces s with
  | case1 s ih =>
    rw [List.flatMap_cons, ih]
    show slashes ++ s.takeWhile _ ++ s.dropWhile _ = slashes ++ s
    rw [List.append_assoc, List.takeWhile_append_dropWhile]
  | case2 s body rest hcut ih =>
    obtain ⟨rfl, -⟩ := cutAtCloser?_eq_some hcut
    rw [List.flatMap_cons, ih]
    show opener ++ body ++ closer ++ rest = opener ++ (body ++ closer ++ rest)
    simp only [List.append_assoc]
  | case3 s hcut ih =>
    rw [List.flatMap_cons, ih]
    rfl
  | case4 c s hline hblock ih =>
    rw [List.flatMap_cons, ih]
    rfl
  | case5 => rfl

/-! ### Both runs, piece by piece -/

/-- A mark that is never closed is kept, and so is all that follows it. -/
theorem stripBlocks_of_not_closed (h : ¬ closer <:+: s) :
    stripBlocks ('/' :: '*' :: s) = '/' :: '*' :: s := by
  rw [stripBlocks, stripBlocksFrom, if_neg]
  rwa [closes_iff]

/-- A text without a closing mark has no block comment. -/
theorem stripBlocks_eq_self_of_closer (h : ¬ closer <:+: s) : stripBlocks s = s := by
  induction s with
  | nil => rfl
  | cons c s ih =>
    have htail : ¬ closer <:+: s := fun hs => h (hs.trans (List.suffix_cons c s).isInfix)
    by_cases hopen : opener <+: c :: s
    · obtain ⟨u, hu⟩ := hopen
      obtain ⟨rfl, rfl⟩ := List.cons.inj hu
      exact stripBlocks_of_not_closed fun hc => htail (hc.trans (List.suffix_cons _ _).isInfix)
    · rw [stripBlocks_cons hopen, ih htail]

/-- Without its block comments a text starts with a slash only if it did before. -/
theorem head?_stripBlocks_ne_slash (h : s.head? ≠ some '/') : (stripBlocks s).head? ≠ some '/' := by
  cases s with
  | nil => exact h
  | cons c s =>
    have hc : c ≠ '/' := fun hslash => h (congrArg some hslash)
    rw [stripBlocks_cons (mark_notPrefix_of_ne hc)]
    exact h

/-- A character that the first run keeps and that starts no line comment is kept by both runs. -/
theorem strip_cons (hkeep : stripBlocks (c :: s) = c :: stripBlocks s)
    (hline : ¬ slashes <+: c :: s) : strip (c :: s) = c :: strip s := by
  rw [strip, hkeep]
  refine stripLinesFrom_code_cons ?_
  rw [slashes, mark_prefix_cons] at hline ⊢
  rintro ⟨rfl, hhead⟩
  exact head?_stripBlocks_ne_slash (fun h => hline ⟨rfl, h⟩) hhead

theorem stripLines_append_of_notMem (h : '/' ∉ s) (t : List Char) :
    stripLines (s ++ t) = s ++ stripLines t := by
  induction s with
  | nil => rfl
  | cons x s ih =>
    rw [List.mem_cons, not_or] at h
    rw [List.cons_append, stripLines, stripLinesFrom_code_cons (mark_notPrefix_of_ne (Ne.symm h.1))]
    exact congrArg (x :: ·) (ih h.2)

theorem strip_block (hb : ¬ closer <:+: b) (r : List Char) :
    strip (opener ++ b ++ closer ++ r) = b.filter (· == '\n') ++ strip r := by
  have hblock := strip_block_comment (.plain (t := []) (by decide)) hb r
  rw [List.nil_append, stripBlocks, stripBlocksFrom, List.nil_append] at hblock
  rw [hblock, stripLines_append_of_notMem, strip]
  intro hslash
  exact absurd (List.mem_filter.1 hslash).2 (by decide)

/-- A line comment that holds no opening mark is removed up to the end of the line. -/
theorem strip_line (ht : '\n' ∉ t) (ho : ¬ opener <:+: slashes ++ t) (hr : Text.AtLineEnd r) :
    strip (slashes ++ t ++ r) = strip r := by
  rcases hr.eq_nil_or with rfl | ⟨r, rfl⟩
  · rw [List.append_nil, strip, stripBlocks_eq_self ho]
    exact stripLinesFrom_comment_of_no_newline ht
  · have hline := strip_line_comment (.plain (t := []) (by decide)) ht ho r
    rw [List.nil_append] at hline
    rw [hline, strip_cons (stripBlocks_cons (mark_notPrefix_of_ne (by decide)))
      (mark_notPrefix_of_ne (by decide))]
    rfl

/-! ### One scan -/

/-- **One scan removes the same comments.**  The pieces that a text is cut into spell it, and where
no line comment among them holds the mark that opens a block comment, removing block comments first
and line comments then leaves what one scan leaves: nothing of a line comment, the newlines of a
block comment, and every other character. -/
theorem strip_eq_flatMap_code (s : List Char)
    (h : ∀ t, Piece.line t ∈ pieces s → ¬ opener <:+: slashes ++ t) :
    (pieces s).flatMap Piece.source = s ∧ strip s = (pieces s).flatMap Piece.code := by
  refine ⟨flatMap_source_pieces s, ?_⟩
  fun_induction pieces s with
  | case1 s ih =>
    -- a line comment
    have hbody : '\n' ∉ s.takeWhile (· ≠ '\n') := fun hmem =>
      absurd (List.mem_takeWhile_imp hmem) (by decide)
    have hline := strip_line hbody (h _ List.mem_cons_self) (Text.atLineEnd_dropWhile s)
    rw [List.append_assoc, List.takeWhile_append_dropWhile] at hline
    rw [List.flatMap_cons, ← ih fun t ht => h t (List.mem_cons_of_mem _ ht)]
    exact hline
  | case2 s body rest hcut ih =>
    -- a block comment
    obtain ⟨rfl, hbody⟩ := cutAtCloser?_eq_some hcut
    have hblock := strip_block hbody rest
    simp only [List.append_assoc] at hblock ⊢
    rw [List.flatMap_cons, ← ih fun t ht => h t (List.mem_cons_of_mem _ ht)]
    exact hblock
  | case3 s hcut ih =>
    -- an opening mark that is never closed: both characters are kept, and so is all behind them
    have hclose := cutAtCloser?_eq_none hcut
    have hkeep : stripBlocks ('/' :: '*' :: s) = '/' :: stripBlocks ('*' :: s) := by
      rw [stripBlocks_of_not_closed hclose, stripBlocks_cons (mark_notPrefix_of_ne (by decide)),
        stripBlocks_eq_self_of_closer hclose]
    have hslashes : ¬ slashes <+: '/' :: '*' :: s := mark_notPrefix fun u _ hu =>
      absurd (List.cons.inj hu).1 (by decide)
    rw [strip_cons hkeep hslashes, ih fun t ht => h t (List.mem_cons_of_mem _ ht)]
    rfl
  | case4 c s hline hblock ih =>
    have hkeep := stripBlocks_cons (mark_notPrefix hblock)
    rw [strip_cons hkeep (mark_notPrefix hline), ih fun t ht => h t (List.mem_cons_of_mem _ ht)]
    rfl
  | case5 => rfl

/-- Two block comments with a slash right behind them, a line comment that holds a closing mark, and
an opening mark that is never closed. -/
theorem strip_eq_flatMap_code_mixed :
    let s := "/*a*//*\n*// b // c */\nd /*/ // e".toList
    (∀ t, Piece.line t ∈ pieces s → ¬ opener <:+: slashes ++ t) ∧
      (pieces s).flatMap Piece.source = s ∧ strip s = (pieces s).flatMap Piece.code ∧
      strip s = "\n/ b \nd /*/ ".toList := by
  intro s
  have hpieces : pieces s = [.block ['a'], .block ['\n']] ++ "/ b ".toList.map .char ++
      [.line " c */".toList] ++ "\nd /*/ ".toList.map .char ++ [.line " e".toList] := by
    decide +kernel
  have hlines : ∀ t, Piece.line t ∈ pieces s → ¬ opener <:+: slashes ++ t := by
    intro t ht
    obtain rfl | rfl : t = " c */".toList ∨ t = " e".toList := by simpa [hpieces] using ht
    · decide +kernel
    · decide +kernel
  obtain ⟨hsource, hcode⟩ := strip_eq_flatMap_code s hlines
  exact ⟨hlines, hsource, hcode, by decide⟩

end ModuleHierarchy.Comment
