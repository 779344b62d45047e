/-
ModuleHierarchy/Proofs/Token/Alike.lean

Texts that are cut into the same tokens.  A character is inert if it is a separator and does not
end a line.  `Alike s t` says that `s` is `t` with inert characters exchanged for others, and with
further inert characters put at the ends of lines.

The relation passes through each step on the way to the tokens.  An inert character is no part of a
comment mark, so alike texts have their comments at the same places (`Alike.strip`).  They have
alike lines (`Alike.lines`).  On a line a walk finds the same lexemes, since the fronts of alike
texts are equal and what is put at the end is no lexeme (`Alike.walk_eq`).  Together this is

    Alike s t → ofText s = ofText t                                          (`Alike.ofText_eq`).
-/
import ModuleHierarchy.Proofs.Comment.Closed
import ModuleHierarchy.Proofs.Token.Separator
import ModuleHierarchy.Token.Stream

namespace ModuleHierarchy

/-- A separator that does not end a line. -/
def Lexeme.isInert (c : Char) : Bool :=
  isSeparator c && c != '\n'

namespace Token

open Lexeme

variable {c d x y : Char} {s t u rest : List Char} {line pending : Nat} {prev prev' : Option Char}

/-! ### Interchangeable characters -/

theorem isSeparator_of_isInert (h : isInert c = true) : isSeparator c = true :=
  (Bool.and_eq_true_iff.1 h).1

theorem isInert_slash : isInert '/' = false := by decide

theorem isInert_star : isInert '*' = false := by decide

theorem isInert_newline : isInert '\n' = false := by decide

/-- The same character, or two inert ones. -/
def Interchangeable (c d : Char) : Prop :=
  c = d ∨ isInert c = true ∧ isInert d = true

theorem Interchangeable.eq_right (h : Interchangeable c x) (hx : isInert x = false) : c = x := by
  rcases h with heq | ⟨-, hinert⟩
  · exact heq
  · rw [hx] at hinert
    cases hinert

theorem Interchangeable.symm (h : Interchangeable c d) : Interchangeable d c := by
  rcases h with heq | ⟨hc, hd⟩
  · exact .inl heq.symm
  · exact .inr ⟨hd, hc⟩

theorem Interchangeable.eq_left (h : Interchangeable x d) (hx : isInert x = false) : x = d :=
  (h.symm.eq_right hx).symm

theorem Interchangeable.ne_right (h : Interchangeable c d) (hx : isInert x = false) (hc : c ≠ x) :
    d ≠ x := by
  rintro rfl
  exact hc (h.eq_right hx)

/-! ### Alike texts -/

/-- The first text is the second with inert characters exchanged, and with inert characters put at
the ends of lines. -/
inductive Alike : List Char → List Char → Prop
  | nil : Alike [] []
  | cons {c d : Char} (hcd : Interchangeable c d) {s t : List Char} :
      Alike s t → Alike (c :: s) (d :: t)
  | put {c : Char} (hc : isInert c = true) {s t : List Char} (ht : Text.AtLineEnd t) :
      Alike s t → Alike (c :: s) t

namespace Alike

/-- A character that is not inert stands in both texts. -/
theorem exists_eq_cons (h : Alike (x :: s) t) (hx : isInert x = false) :
    ∃ u, t = x :: u ∧ Alike s u := by
  cases h with
  | cons hcd h =>
    obtain rfl := hcd.eq_left hx
    exact ⟨_, rfl, h⟩
  | put hc _ _ =>
    rw [hx] at hc
    cases hc

theorem head?_eq_of_head? (h : Alike s t) (hx : isInert x = false) (hnewline : x ≠ '\n')
    (ht : t.head? = some x) : s.head? = some x := by
  cases h with
  | nil => exact ht
  | cons hcd _ =>
    obtain rfl := Option.some.inj ht
    exact congrArg some (hcd.eq_right hx)
  | put _ hend _ => exact absurd (hend x ht) hnewline

/-- Where the first of two alike texts has no mark, the second has none. -/
theorem mark_notPrefix (h : Alike s t) (hcd : Interchangeable c d) (hx : isInert x = false)
    (hy : isInert y = false) (hnewline : y ≠ '\n') (hno : ∀ u, c = x → s = y :: u → False) :
    ¬ [x, y] <+: d :: t := by
  rw [Comment.mark_prefix_cons]
  rintro ⟨rfl, hhead⟩
  obtain ⟨u, hu⟩ := List.head?_eq_some_iff.1 (h.head?_eq_of_head? hy hnewline hhead)
  exact hno u (hcd.eq_right hx) hu

/-! ### Comments -/

theorem closes_eq (h : Alike s t) : Comment.closes s = Comment.closes t := by
  fun_induction Comment.closes s generalizing t with
  | case1 s =>
    obtain ⟨u, rfl, hu⟩ := h.exists_eq_cons isInert_star
    obtain ⟨v, rfl, -⟩ := hu.exists_eq_cons isInert_slash
    rfl
  | case2 c s hno ih =>
    cases h with
    | cons hcd h =>
      have hmark := h.mark_notPrefix hcd isInert_star isInert_slash (by decide) hno
      rw [Comment.closes_cons hmark]
      exact ih h
    | put _ _ h => exact ih h
  | case3 =>
    cases h
    rfl

theorem stripBlocksFrom (g : Comment.Region) (h : Alike s t) :
    Alike (Comment.stripBlocksFrom g s) (Comment.stripBlocksFrom g t) := by
  fun_induction Comment.stripBlocksFrom g s generalizing t with
  | case1 s hs ih =>
    -- a block comment opens
    obtain ⟨u, rfl, hu⟩ := h.exists_eq_cons isInert_slash
    obtain ⟨v, rfl, hv⟩ := hu.exists_eq_cons isInert_star
    rw [Comment.stripBlocksFrom, if_pos (hv.closes_eq ▸ hs)]
    exact ih hv
  | case2 s hs =>
    obtain ⟨u, rfl, hu⟩ := h.exists_eq_cons isInert_slash
    obtain ⟨v, rfl, hv⟩ := hu.exists_eq_cons isInert_star
    rw [Comment.stripBlocksFrom, if_neg (hv.closes_eq ▸ hs)]
    exact h
  | case3 c s hno ih =>
    cases h with
    | cons hcd h =>
      have hmark := h.mark_notPrefix hcd isInert_slash isInert_star (by decide) hno
      rw [show Comment.stripBlocksFrom .code (_ :: _) = _ from Comment.stripBlocks_cons hmark]
      exact (ih h).cons hcd
    | put hc ht h => exact (ih h).put hc (ht.of_thinned (Comment.thinned_stripBlocksFrom .code _))
  | case4 s ih =>
    -- a block comment closes
    obtain ⟨u, rfl, hu⟩ := h.exists_eq_cons isInert_star
    obtain ⟨v, rfl, hv⟩ := hu.exists_eq_cons isInert_slash
    exact ih hv
  | case5 s ih =>
    obtain ⟨u, rfl, hu⟩ := h.exists_eq_cons isInert_newline
    exact (ih hu).cons (.inl rfl)
  | case6 c s hno hc ih =>
    cases h with
    | cons hcd h =>
      have hmark := h.mark_notPrefix hcd isInert_star isInert_slash (by decide) hno
      rw [Comment.stripBlocksFrom_comment_cons hmark (hcd.ne_right isInert_newline hc)]
      exact ih h
    | put _ _ h => exact ih h
  | case7 g =>
    cases h
    cases g <;> exact .nil

theorem stripLinesFrom (g : Comment.Region) (h : Alike s t) :
    Alike (Comment.stripLinesFrom g s) (Comment.stripLinesFrom g t) := by
  fun_induction Comment.stripLinesFrom g s generalizing t with
  | case1 s ih =>
    -- a line comment opens
    obtain ⟨u, rfl, hu⟩ := h.exists_eq_cons isInert_slash
    obtain ⟨v, rfl, hv⟩ := hu.exists_eq_cons isInert_slash
    exact ih hv
  | case2 c s hno ih =>
    cases h with
    | cons hcd h =>
      have hmark := h.mark_notPrefix hcd isInert_slash isInert_slash (by decide) hno
      rw [Comment.stripLinesFrom_code_cons hmark]
      exact (ih h).cons hcd
    | put hc ht h => exact (ih h).put hc (ht.of_thinned (Comment.thinned_stripLinesFrom .code _))
  | case3 s ih =>
    obtain ⟨u, rfl, hu⟩ := h.exists_eq_cons isInert_newline
    exact (ih hu).cons (.inl rfl)
  | case4 c s hc ih =>
    cases h with
    | cons hcd h =>
      rw [Comment.stripLinesFrom_comment_cons (hcd.ne_right isInert_newline hc)]
      exact ih h
    | put _ _ h => exact ih h
  | case5 g =>
    cases h
    cases g <;> exact .nil

/-- Alike texts are alike without their comments. -/
theorem strip (h : Alike s t) : Alike (Comment.strip s) (Comment.strip t) :=
  (h.stripBlocksFrom .code).stripLinesFrom .code

/-! ### Lines -/

/-- Line by line, alike texts are alike. -/
theorem lines (h : Alike s t) : List.Forall₂ Alike (s.splitOn '\n') (t.splitOn '\n') := by
  induction h with
  | nil => exact .cons .nil .nil
  | @cons c d hcd s t _ ih =>
    rw [List.splitOn_cons_eq_if_modifyHead, List.splitOn_cons_eq_if_modifyHead]
    generalize s.splitOn '\n' = ls at ih
    generalize t.splitOn '\n' = ms at ih
    by_cases hc : c = '\n'
    · subst hc
      obtain rfl := hcd.eq_left isInert_newline
      exact .cons .nil ih
    · have hd : d ≠ '\n' := hcd.ne_right isInert_newline hc
      rw [if_neg (by simpa using hc), if_neg (by simpa using hd)]
      cases ih with
      | nil => exact .nil
      | cons hl hls => exact .cons (hl.cons hcd) hls
  | @put c hc s t ht _ ih =>
    have hnewline : c ≠ '\n' := by
      rintro rfl
      rw [isInert_newline] at hc
      cases hc
    rw [List.splitOn_cons_eq_if_modifyHead c, if_neg (by simpa using hnewline)]
    generalize s.splitOn '\n' = ls at ih
    -- the line of the second text ends here
    obtain ⟨ms, hms⟩ : ∃ ms, t.splitOn '\n' = [] :: ms := by
      rcases ht.eq_nil_or with rfl | ⟨u, rfl⟩
      · exact ⟨_, rfl⟩
      · exact ⟨_, List.splitOn_cons_eq_if_modifyHead ..⟩
    rw [hms] at ih ⊢
    cases ih with
    | cons hl hls => exact .cons (hl.put hc Text.atLineEnd_nil) hls

/-! ### Tokens of a line -/

theorem front_eq (h : Alike s t) : front s = front t := by
  induction h with
  | nil => rfl
  | @cons c d hcd s t _ ih =>
    rcases hcd with rfl | ⟨hc, hd⟩
    · rw [front, front, List.takeWhile_cons, List.takeWhile_cons]
      exact congrArg (if !isSeparator c then c :: · else []) ih
    · rw [front_cons (isSeparator_of_isInert hc), front_cons (isSeparator_of_isInert hd)]
  | put hc ht _ _ =>
    rw [front_cons (isSeparator_of_isInert hc)]
    rcases ht.eq_nil_or with rfl | ⟨u, rfl⟩
    · rfl
    · exact (front_cons (by decide)).symm

end Alike

/-! ### The walk -/

/-- A separator is passed without a token. -/
theorem walk_cons_separator (hc : isSeparator c = true) :
    walk line 0 prev (c :: s) = walk line 0 (some c) s := by
  rw [walk, next?_eq_none hc]

/-- The characters of a token that is found already are passed. -/
theorem walk_length_append (line : Nat) (c : Char) (w rest : List Char) :
    walk line w.length (some c) (w ++ rest) = walk line 0 (c :: w).getLast? rest := by
  induction w generalizing c with
  | nil => rfl
  | cons d w ih => exact ih d

/-- Where a lexeme is found, the walk yields its token and goes on behind it. -/
theorem walk_of_next? {w : List Char} {k : Token.Kind} (line : Nat)
    (h : next? prev (w ++ rest) = some ⟨k, w⟩) :
    walk line 0 prev (w ++ rest) = ofLexeme line ⟨k, w⟩ :: walk line 0 w.getLast? rest := by
  obtain ⟨c, w, rfl⟩ := List.exists_cons_of_ne_nil (next?_ne_nil h)
  rw [List.cons_append] at h
  rw [← walk_length_append, List.cons_append, walk, h]
  rfl

theorem Interchangeable.isWordChar_eq (h : Interchangeable c d) :
    Text.isWordChar c = Text.isWordChar d := by
  rcases h with rfl | ⟨hc, hd⟩
  · rfl
  · rw [isWordChar_eq_false (isSeparator_of_isInert hc),
      isWordChar_eq_false (isSeparator_of_isInert hd)]

/-- On alike lines the same tokens are found, whatever is found of the first one already. -/
theorem Alike.walk_eq (h : Alike s t) (ht : '\n' ∉ t)
    (hprev : prev.any Text.isWordChar = prev'.any Text.isWordChar) :
    walk line pending prev s = walk line pending prev' t := by
  induction h generalizing pending prev prev' with
  | nil => cases pending <;> rfl
  | @cons c d hcd s t h ih =>
    have htail : '\n' ∉ t := fun hmem => ht (List.mem_cons_of_mem d hmem)
    have hstep (n : Nat) : walk line n (some c) s = walk line n (some d) t :=
      ih htail hcd.isWordChar_eq
    cases pending with
    | succ pending => exact hstep pending
    | zero =>
      rw [walk, walk, next?_congr hprev (h.cons hcd).front_eq]
      split
      · exact congrArg (ofLexeme line _ :: ·) (hstep _)
      · exact hstep 0
  | @put c hc s t hend h ih =>
    rcases hend.eq_nil_or with rfl | ⟨u, rfl⟩
    · -- nothing is left of the second line
      have hword : (some c).any Text.isWordChar = none.any Text.isWordChar :=
        isWordChar_eq_false (isSeparator_of_isInert hc)
      have hnil (n : Nat) : walk line n (some c) s = [] := by
        have hwalk : walk line n (some c) s = walk line n none [] := ih List.not_mem_nil hword
        rw [hwalk]
        cases n <;> rfl
      cases pending with
      | succ pending => exact hnil pending
      | zero =>
        rw [walk_cons_separator (isSeparator_of_isInert hc)]
        exact hnil 0
    · exact absurd List.mem_cons_self ht

/-! ### Ends of lines -/

theorem walk_prev_congr (hprev : prev.any Text.isWordChar = prev'.any Text.isWordChar)
    (s : List Char) : walk line 0 prev s = walk line 0 prev' s := by
  cases s with
  | nil => rfl
  | cons c s => rw [walk, walk, next?_congr hprev rfl]

/-- Separators at the start of a text are no tokens. -/
theorem ofChars_dropWhile {p : Char → Bool} (hp : ∀ c, p c = true → isSeparator c = true)
    (line : Nat) (s : List Char) : ofChars line (s.dropWhile p) = ofChars line s := by
  induction s with
  | nil => rfl
  | cons c s ih =>
    rw [List.dropWhile_cons]
    split
    · next hc =>
      have hword : none.any Text.isWordChar = (some c).any Text.isWordChar :=
        (isWordChar_eq_false (hp c hc)).symm
      rw [ih, ofChars, ofChars, walk_cons_separator (hp c hc)]
      exact walk_prev_congr hword s
    · rfl

theorem Alike.append_inert (hrest : ∀ c ∈ rest, isInert c = true) (s : List Char) :
    Alike (s ++ rest) s := by
  induction s with
  | nil =>
    rw [List.nil_append]
    induction rest with
    | nil => exact .nil
    | cons c rest ih =>
      obtain ⟨hc, hrest⟩ := List.forall_mem_cons.1 hrest
      exact (ih hrest).put hc Text.atLineEnd_nil
  | cons c s ih => exact ih.cons (.inl rfl)

/-- The blanks at the ends of a line are no tokens. -/
theorem ofChars_trim (hs : '\n' ∉ s) : ofChars line (Text.trim s) = ofChars line s := by
  obtain ⟨r, hr, hblank⟩ := Text.exists_dropTrailing_append Text.isBlank (s.dropWhile Text.isBlank)
  have hline : '\n' ∉ Text.trim s ++ r := by
    rw [Text.trim, ← hr]
    exact fun hmem => hs ((List.dropWhile_sublist _).subset hmem)
  rw [List.mem_append, not_or] at hline
  have hinert : ∀ c ∈ r, isInert c = true := by
    intro c hc
    have hnewline : c ≠ '\n' := by
      rintro rfl
      exact hline.2 hc
    rw [isInert, isSeparator_of_isBlank (hblank c hc), Bool.true_and]
    exact bne_iff_ne.2 hnewline
  calc ofChars line (Text.trim s)
      = ofChars line (Text.trim s ++ r) :=
        ((Alike.append_inert hinert _).walk_eq hline.1 rfl).symm
    _ = ofChars line (s.dropWhile Text.isBlank) := by rw [Text.trim, ← hr]
    _ = ofChars line s := ofChars_dropWhile (fun _ => isSeparator_of_isBlank) line s

/-! ### Tokens of a text -/

theorem newline_notMem_strip (ht : '\n' ∉ t) : '\n' ∉ Comment.strip t :=
  fun hmem => ht ((Comment.thinned_strip t).sublist.subset hmem)

theorem ofLine_eq (ht : '\n' ∉ t) : ofLine line t = ofChars line (Comment.strip t) :=
  ofChars_trim (newline_notMem_strip ht)

theorem Alike.ofLine_eq (h : Alike s t) (hs : '\n' ∉ s) (ht : '\n' ∉ t) :
    ofLine line s = ofLine line t := by
  rw [Token.ofLine_eq hs, Token.ofLine_eq ht]
  exact h.strip.walk_eq (newline_notMem_strip ht) rfl

theorem flatMap_ofLine_eq {ls ms : List (List Char)} (h : List.Forall₂ Alike ls ms)
    (hls : ∀ l ∈ ls, '\n' ∉ l) (hms : ∀ m ∈ ms, '\n' ∉ m) (n : Nat) :
    ((ls.zipIdx n).flatMap fun (l, i) => ofLine i l) =
      (ms.zipIdx n).flatMap fun (m, i) => ofLine i m := by
  induction h generalizing n with
  | nil => rfl
  | cons hl _ ih =>
    obtain ⟨hl', hls⟩ := List.forall_mem_cons.1 hls
    obtain ⟨hm', hms⟩ := List.forall_mem_cons.1 hms
    rw [List.zipIdx_cons, List.zipIdx_cons, List.flatMap_cons, List.flatMap_cons,
      ih hls hms (n + 1)]
    exact congrArg (· ++ _) (hl.ofLine_eq hl' hm')

/-- **Alike texts have the same tokens.** -/
theorem Alike.ofText_eq (h : Alike s t) : ofText s = ofText t :=
  flatMap_ofLine_eq h.lines (fun _ => Text.newline_notMem_of_mem_lines)
    (fun _ => Text.newline_notMem_of_mem_lines) 1

end Token

end ModuleHierarchy
