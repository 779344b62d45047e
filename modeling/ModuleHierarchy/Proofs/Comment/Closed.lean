/-
ModuleHierarchy/Proofs/Comment/Closed.lean

What the removal of comments keeps.  It moves nothing to another line: both kinds of comments leave
their newlines where they were, so the text without comments is the text with some characters left
out, none of them a newline (`thinned_strip`).

A text is `Closed` if, after its block comments are taken away from the left to the right, no block
comment opens in the rest.  What follows a closed text is read as if it stood alone
(`Closed.stripBlocks_append`), and so a comment that is put behind one is read as that comment.

Of a block comment only the newlines are left (`strip_block_comment`), and of a line comment
nothing but the newline behind it (`strip_line_comment`).  The two slashes stay in the statement
of the latter, since what they do depends on the closed text: its last line may have a line
comment of its own, and a slash at its end makes one with the first of the two.
-/
import ModuleHierarchy.Comment
import ModuleHierarchy.Proofs.Text.Line

namespace ModuleHierarchy.Comment

variable {m a p c s t r : List Char} {x y z : Char}

/-! ### Lines -/

theorem slash_ne_newline : '/' ≠ '\n' := by decide

theorem star_ne_newline : '*' ≠ '\n' := by decide

theorem thinned_stripBlocksFrom (r : Region) (s : List Char) :
    Text.Thinned (stripBlocksFrom r s) s := by
  fun_induction stripBlocksFrom r s with
  | case1 s _ ih =>
    -- a block comment opens
    exact (ih.leave star_ne_newline).leave slash_ne_newline
  | case2 s _ => exact .refl _
  | case3 c s _ ih => exact ih.keep c
  | case4 s ih =>
    -- a block comment closes
    exact (ih.leave slash_ne_newline).leave star_ne_newline
  | case5 s ih => exact ih.keep '\n'
  | case6 c s _ hc ih => exact ih.leave hc
  | case7 => exact .nil

theorem thinned_stripLinesFrom (r : Region) (s : List Char) :
    Text.Thinned (stripLinesFrom r s) s := by
  fun_induction stripLinesFrom r s with
  | case1 s ih =>
    -- a line comment opens
    exact (ih.leave slash_ne_newline).leave slash_ne_newline
  | case2 c s _ ih => exact ih.keep c
  | case3 s ih => exact ih.keep '\n'
  | case4 c s hc ih => exact ih.leave hc
  | case5 => exact .nil

/-- The text without comments is the text with some characters left out, but no newline. -/
theorem thinned_strip (s : List Char) : Text.Thinned (strip s) s :=
  (thinned_stripLinesFrom .code (stripBlocks s)).trans (thinned_stripBlocksFrom .code s)

/-! ### Marks -/

/-- The mark that opens a block comment. -/
def opener : List Char := ['/', '*']

/-- The mark that closes a block comment. -/
def closer : List Char := ['*', '/']

/-- The mark that opens a line comment. -/
def slashes : List Char := ['/', '/']

theorem mark_prefix_cons : [x, y] <+: z :: s ↔ x = z ∧ s.head? = some y := by
  rw [List.cons_prefix_cons]
  refine and_congr_right fun _ => ?_
  cases s with
  | nil => simp
  | cons w s => simp [List.cons_prefix_cons, eq_comm]

theorem mark_infix_cons : [x, y] <:+: z :: s ↔ (x = z ∧ s.head? = some y) ∨ [x, y] <:+: s := by
  rw [List.infix_cons_iff, mark_prefix_cons]

/-- A mark does not start in a text that lacks its first character. -/
theorem mark_infix_append (hx : x ∉ a) : [x, y] <:+: a ++ s ↔ [x, y] <:+: s := by
  induction a with
  | nil => exact Iff.rfl
  | cons z a ih =>
    rw [List.mem_cons, not_or] at hx
    rw [List.cons_append, mark_infix_cons, ih hx.2, or_iff_right fun h => hx.1 h.1]

theorem mark_notPrefix (h : ∀ u, z = x → s = y :: u → False) : ¬ [x, y] <+: z :: s := by
  rintro ⟨u, hu⟩
  obtain ⟨rfl, rfl⟩ := List.cons.inj hu
  exact h u rfl rfl

theorem mark_notPrefix_of_ne (h : z ≠ x) : ¬ [x, y] <+: z :: s :=
  mark_notPrefix fun _ hz => absurd hz h

/-- No mark `m` starts in `s` when `r` follows it. -/
def Clear (m r : List Char) : List Char → Prop
  | [] => True
  | x :: s => ¬ m <+: x :: (s ++ r) ∧ Clear m r s

/-- A mark that is nowhere in a text does not start in it either, unless the text ends with its
first character and what follows starts with the second. -/
theorem clear_of_ends (hr : s.getLast? = some x → r.head? ≠ some y) (h : ¬ [x, y] <:+: s) :
    Clear [x, y] r s := by
  induction s with
  | nil => trivial
  | cons z s ih =>
    rw [mark_infix_cons, not_or] at h
    cases s with
    | nil =>
      refine ⟨?_, trivial⟩
      rw [mark_prefix_cons]
      rintro ⟨rfl, hhead⟩
      exact hr rfl hhead
    | cons w s =>
      refine ⟨?_, ih (by simpa [List.getLast?_cons] using hr) h.2⟩
      rw [mark_prefix_cons]
      exact h.1

/-- A mark that is nowhere in a text does not start in it either, if what follows cannot go on
with it. -/
theorem clear_of_infix_free (hr : r.head? ≠ some y) (h : ¬ [x, y] <:+: s) : Clear [x, y] r s :=
  clear_of_ends (fun _ => hr) h

/-- A map of characters makes no mark out of other characters, if it makes none of the mark's. -/
theorem infix_of_infix_map {f : Char → Char} (hm : ∀ c ∈ m, ∀ d, f d = c → d = c)
    (h : m <:+: s.map f) : m <:+: s := by
  obtain ⟨l, hl, rfl⟩ := List.infix_map_iff.1 h
  have hfix : l.map f = l.map id := List.map_congr_left fun d hd =>
    (hm (f d) (List.mem_map_of_mem hd) d rfl).symm
  rwa [hfix, List.map_id]

theorem closes_cons (h : ¬ closer <+: z :: s) : closes (z :: s) = closes s := by
  rw [closes]
  rintro u rfl rfl
  exact h (List.prefix_append closer u)

theorem closes_iff : closes s = true ↔ closer <:+: s := by
  fun_induction closes s with
  | case1 s => exact iff_of_true rfl ⟨[], s, rfl⟩
  | case2 x s hx ih =>
    rw [ih, closer, mark_infix_cons]
    refine (or_iff_right ?_).symm
    rintro ⟨rfl, hhead⟩
    obtain ⟨u, rfl⟩ := List.head?_eq_some_iff.1 hhead
    exact hx u rfl rfl
  | case3 => exact iff_of_false Bool.false_ne_true (by decide)

/-! ### Block comments -/

theorem stripBlocksFrom_code_append (h : Clear opener r t) :
    stripBlocksFrom .code (t ++ r) = t ++ stripBlocksFrom .code r := by
  induction t with
  | nil => rfl
  | cons x t ih =>
    obtain ⟨hx, ht⟩ := h
    rw [List.cons_append, stripBlocksFrom, ih ht, List.cons_append]
    rintro u rfl hu
    exact hx ⟨u, by rw [hu]; rfl⟩

theorem stripBlocks_cons (h : ¬ opener <+: x :: s) : stripBlocks (x :: s) = x :: stripBlocks s :=
  stripBlocksFrom_code_append (t := [x]) ⟨h, trivial⟩

theorem stripBlocks_eq_self (h : ¬ opener <:+: t) : stripBlocks t = t := by
  have hclear : Clear opener [] t := clear_of_infix_free (by simp) h
  have hnil := stripBlocksFrom_code_append hclear
  rwa [List.append_nil, stripBlocksFrom, List.append_nil] at hnil

theorem stripBlocksFrom_comment_cons (h : ¬ closer <+: x :: s) (hx : x ≠ '\n') :
    stripBlocksFrom .comment (x :: s) = stripBlocksFrom .comment s := by
  rw [stripBlocksFrom]
  · rintro u rfl rfl
    exact h (List.prefix_append closer u)
  · exact hx

theorem stripBlocksFrom_comment_append (h : Clear closer (closer ++ s) c) :
    stripBlocksFrom .comment (c ++ closer ++ s) =
      c.filter (· == '\n') ++ stripBlocksFrom .code s := by
  induction c with
  | nil => rfl
  | cons x c ih =>
    obtain ⟨hx, hc⟩ := h
    by_cases hnew : x = '\n'
    · subst hnew
      rw [List.cons_append, List.cons_append, stripBlocksFrom, ih hc]
      rfl
    · rw [← List.append_assoc] at hx
      rw [List.cons_append, List.cons_append, stripBlocksFrom_comment_cons hx hnew, ih hc,
        List.filter_cons_of_neg]
      simpa using hnew

/-- Of a block comment only the newlines are left. -/
theorem stripBlocks_block (hp : ¬ opener <:+: p) (hc : ¬ closer <:+: c) (s : List Char) :
    stripBlocks (p ++ opener ++ c ++ closer ++ s) =
      p ++ c.filter (· == '\n') ++ stripBlocks s := by
  have hclear : Clear opener (opener ++ (c ++ closer ++ s)) p :=
    clear_of_infix_free (by simp [opener]) hp
  have hcloses : closes (c ++ closer ++ s) = true := closes_iff.2 ⟨c, s, rfl⟩
  have hclear' : Clear closer (closer ++ s) c := clear_of_infix_free (by simp [closer]) hc
  calc stripBlocks (p ++ opener ++ c ++ closer ++ s)
      = stripBlocks (p ++ (opener ++ (c ++ closer ++ s))) := by simp only [List.append_assoc]
    _ = p ++ stripBlocksFrom .code ('/' :: '*' :: (c ++ closer ++ s)) :=
        stripBlocksFrom_code_append hclear
    _ = p ++ stripBlocksFrom .comment (c ++ closer ++ s) := by
        rw [stripBlocksFrom, if_pos hcloses]
    _ = p ++ c.filter (· == '\n') ++ stripBlocks s := by
        rw [stripBlocksFrom_comment_append hclear', List.append_assoc]
        rfl

/-! ### Closed texts -/

/-- No block comment opens in the text once its block comments are taken away, from the left to
the right: it is `t` with no opening mark, or its first block comment stands behind `p`, holds
`c` and leaves a closed text behind it. -/
inductive Closed : List Char → Prop
  | plain {t : List Char} (ht : ¬ opener <:+: t) : Closed t
  | comment {p c s : List Char} (hp : ¬ opener <:+: p) (hc : ¬ closer <:+: c) (hs : Closed s) :
      Closed (p ++ opener ++ c ++ closer ++ s)

/-- What follows a closed text is read as if it stood alone, if it does not start with a star. -/
theorem Closed.stripBlocks_append (h : Closed a) (hr : r.head? ≠ some '*') :
    stripBlocks (a ++ r) = stripBlocks a ++ stripBlocks r := by
  induction h with
  | @plain t ht =>
    rw [stripBlocks_eq_self ht]
    exact stripBlocksFrom_code_append (clear_of_infix_free hr ht)
  | @comment p c s hp hc _ ih =>
    rw [List.append_assoc, stripBlocks_block hp hc, stripBlocks_block hp hc, ih]
    simp only [List.append_assoc]

/-- A map of characters that makes no marks keeps a text closed. -/
theorem Closed.map {f : Char → Char} (hslash : ∀ c, f c = '/' ↔ c = '/')
    (hstar : ∀ c, f c = '*' ↔ c = '*') (h : Closed a) : Closed (a.map f) := by
  have hopen : ∀ {s}, ¬ opener <:+: s → ¬ opener <:+: s.map f := fun hs h =>
    hs (infix_of_infix_map (by simp [opener, hslash, hstar]) h)
  have hclose : ∀ {s}, ¬ closer <:+: s → ¬ closer <:+: s.map f := fun hs h =>
    hs (infix_of_infix_map (by simp [closer, hslash, hstar]) h)
  induction h with
  | plain ht => exact .plain (hopen ht)
  | @comment p c s hp hc _ ih =>
    have hmap := Closed.comment (hopen hp) (hclose hc) ih
    simpa [opener, closer, (hslash '/').2 rfl, (hstar '*').2 rfl] using hmap

/-! ### Line comments -/

theorem stripLinesFrom_comment_cons (hx : x ≠ '\n') :
    stripLinesFrom .comment (x :: s) = stripLinesFrom .comment s := by
  rw [stripLinesFrom]
  exact hx

theorem stripLinesFrom_comment_of_no_newline (h : '\n' ∉ s) : stripLinesFrom .comment s = [] := by
  induction s with
  | nil => rfl
  | cons x s ih =>
    rw [List.mem_cons, not_or] at h
    rw [stripLinesFrom_comment_cons (Ne.symm h.1), ih h.2]

theorem stripLinesFrom_code_cons (h : ¬ slashes <+: x :: s) :
    stripLinesFrom .code (x :: s) = x :: stripLinesFrom .code s := by
  rw [stripLinesFrom]
  rintro u rfl rfl
  exact h (List.prefix_append slashes u)

theorem stripLines_eq_self (h : ¬ slashes <:+: s) : stripLines s = s := by
  induction s with
  | nil => rfl
  | cons x s ih =>
    have htail : ¬ slashes <:+: s := fun hs => h (hs.trans (List.suffix_cons x s).isInfix)
    rw [stripLines, stripLinesFrom_code_cons fun hprefix => h hprefix.isInfix]
    exact congrArg (x :: ·) (ih htail)

/-- A text without marks is left as it is. -/
theorem strip_eq_self (ho : ¬ opener <:+: s) (hl : ¬ slashes <:+: s) : strip s = s := by
  rw [strip, stripBlocks_eq_self ho, stripLines_eq_self hl]

/-- Line comments are removed line by line. -/
theorem stripLinesFrom_append_newline (g : Region) (s t : List Char) :
    stripLinesFrom g (s ++ '\n' :: t) = stripLinesFrom g s ++ '\n' :: stripLinesFrom .code t := by
  fun_induction stripLinesFrom g s with
  | case1 s ih => exact ih
  | case2 x s hx ih =>
    rw [List.cons_append, stripLinesFrom_code_cons, ih, List.cons_append]
    rw [slashes, mark_prefix_cons]
    rintro ⟨rfl, hhead⟩
    cases s with
    | nil => cases hhead
    | cons w s =>
      obtain rfl := Option.some.inj hhead
      exact hx s rfl rfl
  | case3 s ih => rw [List.cons_append, stripLinesFrom, ih, List.cons_append]
  | case4 x s hx ih => rw [List.cons_append, stripLinesFrom_comment_cons hx, ih]
  | case5 g => cases g <;> rfl

/-- Two slashes make the rest of the line invisible, wherever the line is read from. -/
theorem stripLinesFrom_append_slashes (g : Region) (s : List Char) (hc : '\n' ∉ c) :
    stripLinesFrom g (s ++ (slashes ++ c)) = stripLinesFrom g (s ++ slashes) := by
  have hcomment {w : List Char} (hw : '\n' ∉ w) :
      stripLinesFrom .comment (w ++ c) = stripLinesFrom .comment w := by
    rw [stripLinesFrom_comment_of_no_newline hw, stripLinesFrom_comment_of_no_newline]
    rw [List.mem_append, not_or]
    exact ⟨hw, hc⟩
  fun_induction stripLinesFrom g s with
  | case1 s ih => exact ih
  | case2 x s hx ih =>
    cases s with
    | nil =>
      by_cases hslash : x = '/'
      · -- three slashes in a row: the comment opens at the first of them
        subst hslash
        exact hcomment (w := ['/']) (by decide)
      · have hclear (t : List Char) : ¬ slashes <+: x :: t :=
          fun h => hslash (mark_prefix_cons.1 h).1.symm
        rw [List.cons_append, stripLinesFrom_code_cons (hclear _), ih]
        exact (stripLinesFrom_code_cons (hclear _)).symm
    | cons w s =>
      have hclear (t : List Char) : ¬ slashes <+: x :: (w :: s ++ t) := by
        rw [slashes, mark_prefix_cons]
        rintro ⟨rfl, hhead⟩
        obtain rfl := Option.some.inj hhead
        exact hx s rfl rfl
      rw [List.cons_append, stripLinesFrom_code_cons (hclear _), ih]
      exact (stripLinesFrom_code_cons (hclear _)).symm
  | case3 s ih =>
    rw [List.cons_append, stripLinesFrom, ih, List.cons_append, stripLinesFrom]
  | case4 x s hx ih =>
    rw [List.cons_append, stripLinesFrom_comment_cons hx, ih, List.cons_append,
      stripLinesFrom_comment_cons hx]
  | case5 g =>
    cases g with
    | code => exact hcomment (w := []) List.not_mem_nil
    | comment => exact hcomment (w := slashes) (by decide)

/-! ### What stands behind a closed text -/

/-- Behind a closed text and a newline, any text is read as if it stood alone. -/
theorem strip_append_newline (ha : Closed a) (s : List Char) :
    strip (a ++ '\n' :: s) = strip a ++ '\n' :: strip s := by
  have happend := ha.stripBlocks_append (r := '\n' :: s) (by simp)
  have hnewline : stripBlocks ('\n' :: s) = '\n' :: stripBlocks s :=
    stripBlocks_cons (mark_notPrefix_of_ne (by decide))
  rw [strip, happend, hnewline]
  exact stripLinesFrom_append_newline .code _ _

/-- Behind a closed text, of a block comment only the newlines are left. -/
theorem strip_block_comment (ha : Closed a) (hc : ¬ closer <:+: c) (s : List Char) :
    strip (a ++ opener ++ c ++ closer ++ s) =
      stripLines (stripBlocks a ++ c.filter (· == '\n') ++ stripBlocks s) := by
  have hblock := stripBlocks_block (p := []) (by decide) hc s
  have happend := ha.stripBlocks_append (r := opener ++ c ++ closer ++ s) (by simp [opener])
  simp only [List.append_assoc, List.nil_append] at hblock happend ⊢
  rw [strip, happend, hblock]

/-- Behind a closed text, a line comment that opens no block comment leaves nothing but the
newline behind it. -/
theorem strip_line_comment (ha : Closed a) (hc : '\n' ∉ c) (ho : ¬ opener <:+: slashes ++ c)
    (s : List Char) :
    strip (a ++ slashes ++ c ++ '\n' :: s) =
      stripLines (stripBlocks a ++ slashes) ++ '\n' :: strip s := by
  have hkeep : stripBlocks (slashes ++ c ++ '\n' :: s) = slashes ++ c ++ '\n' :: stripBlocks s :=
    stripBlocksFrom_code_append (clear_of_infix_free (by simp) ho)
  have happend := ha.stripBlocks_append (r := slashes ++ c ++ '\n' :: s) (by simp [slashes])
  calc strip (a ++ slashes ++ c ++ '\n' :: s)
      = stripLines (stripBlocks (a ++ (slashes ++ c ++ '\n' :: s))) := by
        rw [strip]
        simp only [List.append_assoc]
    _ = stripLines (stripBlocks a ++ (slashes ++ c) ++ '\n' :: stripBlocks s) := by
        rw [happend, hkeep]
        simp only [List.append_assoc]
    _ = stripLines (stripBlocks a ++ (slashes ++ c)) ++ '\n' :: strip s :=
        stripLinesFrom_append_newline .code _ _
    _ = stripLines (stripBlocks a ++ slashes) ++ '\n' :: strip s := by
        rw [stripLines, stripLinesFrom_append_slashes .code _ hc]
        rfl

end ModuleHierarchy.Comment
