/-
ModuleHierarchy/Proofs/Comment/Division.lean

What the removal of comments does, said without a scan.  A text has exactly one `Division`

    text = p₀ ++ c₁ ++ p₁ ++ … ++ cₙ ++ pₙ

into block comments `c` and what stands between them that is `Leftmost`: each comment opens with the
first opening mark behind the comment before it and ends with the first closing mark that may close
it, and the first opening mark in `pₙ`, if there is one, is never closed.  Removing block comments
leaves the newlines of each `c` and all of each `p` (`Division.Leftmost.stripBlocks_text`).
Removing line comments then cuts each line at its first two slashes (`stripLines_eq_intercalate`).

Both marks consist of two different characters.  So a mark does not overlap with itself, and where
it stands first determines what is in front of it and behind it (`append_mark_inj`); this is why the
division is unique.
-/
import Mathlib.Data.List.Infix
import ModuleHierarchy.Proofs.Comment.Piece

namespace ModuleHierarchy.Comment

variable {b c m p q r s t : List Char} {x y z : Char} {i k : Nat}

/-! ### First marks -/

/-- Where the first mark of a text starts, if there is one. -/
def firstMark? (m s : List Char) : Option Nat :=
  s.tails.findIdx? m.isPrefixOf

theorem firstMark?_cons (m s : List Char) (z : Char) :
    firstMark? m (z :: s) = if m <+: z :: s then some 0 else (firstMark? m s).map (· + 1) := by
  rw [firstMark?, List.tails_cons, List.findIdx?_cons]
  exact if_congr List.isPrefixOf_iff_prefix rfl rfl

theorem firstMark?_eq_none_iff (hm : m ≠ []) : firstMark? m s = none ↔ ¬ m <:+: s := by
  induction s with
  | nil => simp [firstMark?, hm]
  | cons z s ih =>
    rw [firstMark?_cons, List.infix_cons_iff, not_or, ← ih]
    split
    · next hz => exact iff_of_false (Option.some_ne_none 0) fun h => h.1 hz
    · next hz => rw [Option.map_eq_none_iff, and_iff_right hz]

/-- The first mark is in front of every other place where the mark starts. -/
theorem exists_firstMark?_le (hm : m ≠ []) (h : m <+: s.drop k) :
    ∃ i ≤ k, firstMark? m s = some i := by
  induction s generalizing k with
  | nil => exact absurd (List.prefix_nil.1 (by simpa using h)) hm
  | cons z s ih =>
    rw [firstMark?_cons]
    split
    · exact ⟨0, Nat.zero_le k, rfl⟩
    · next hz =>
      cases k with
      | zero => exact absurd h hz
      | succ k =>
        obtain ⟨i, hi, hfirst⟩ := ih h
        exact ⟨i + 1, Nat.succ_le_succ hi, by rw [hfirst, Option.map_some]⟩

/-- A mark of two different characters stands first if it does not stand in front of itself; it
cannot overlap with itself. -/
theorem firstMark?_eq_some_iff (hxy : x ≠ y) :
    firstMark? [x, y] s = some i ↔
      ∃ p r, p.length = i ∧ s = p ++ [x, y] ++ r ∧ ¬ [x, y] <:+: p := by
  induction s generalizing i with
  | nil => simp [firstMark?]
  | cons z s ih =>
    rw [firstMark?_cons]
    constructor
    · intro h
      split at h
      · next hz =>
        obtain ⟨r, hr⟩ := hz
        exact ⟨[], r, Option.some.inj h, hr.symm, by simp⟩
      · next hz =>
        obtain ⟨j, hj, rfl⟩ := Option.map_eq_some_iff.1 h
        obtain ⟨p, r, rfl, rfl, hp⟩ := ih.1 hj
        refine ⟨z :: p, r, rfl, rfl, ?_⟩
        rw [List.infix_cons_iff, not_or]
        refine ⟨fun hstart => hz (hstart.trans ?_), hp⟩
        rw [← List.cons_append, ← List.cons_append, List.append_assoc]
        exact List.prefix_append _ _
    · rintro ⟨p, r, rfl, hs, hp⟩
      cases p with
      | nil =>
        rw [if_pos ⟨r, hs.symm⟩]
        rfl
      | cons w p =>
        obtain ⟨rfl, rfl⟩ := List.cons.inj hs
        rw [mark_infix_cons, not_or] at hp
        rw [if_neg, ih.2 ⟨p, r, rfl, rfl, hp.2⟩]
        · rfl
        · rw [mark_prefix_cons]
          rintro ⟨rfl, hhead⟩
          cases p with
          | nil => exact hxy (Option.some.inj hhead)
          | cons w p => exact hp.1 ⟨rfl, hhead⟩

theorem firstMark?_append_mark (hxy : x ≠ y) (hp : ¬ [x, y] <:+: p) (r : List Char) :
    firstMark? [x, y] (p ++ [x, y] ++ r) = some p.length :=
  (firstMark?_eq_some_iff hxy).2 ⟨p, r, rfl, rfl, hp⟩

theorem prefix_drop_append (p m r : List Char) : m <+: (p ++ m ++ r).drop p.length := by
  rw [List.append_assoc, List.drop_left]
  exact List.prefix_append m r

/-- What stands in front of the first mark and what stands behind it are determined. -/
theorem append_mark_inj (hxy : x ≠ y) (hp : ¬ [x, y] <:+: p) (hq : ¬ [x, y] <:+: q)
    (h : p ++ [x, y] ++ r = q ++ [x, y] ++ t) : p = q ∧ r = t := by
  have hlength : p.length = q.length := by
    have hfirst := firstMark?_append_mark hxy hp r
    rw [h, firstMark?_append_mark hxy hq] at hfirst
    exact (Option.some.inj hfirst).symm
  rw [List.append_assoc, List.append_assoc] at h
  obtain ⟨rfl, hrest⟩ := List.append_inj h hlength
  exact ⟨rfl, List.append_cancel_left hrest⟩

theorem opener_ne : '/' ≠ '*' := by decide

theorem closer_ne : '*' ≠ '/' := by decide

/-! ### Block comments -/

/-- A block comment opens with `/*` and ends with the first `*/` that does not share the star of the
opening mark. -/
structure IsBlock (c : List Char) : Prop where
  opens : opener <+: c
  closes : closer <:+ c
  four_le : 4 ≤ c.length
  shortest : ∀ i, 2 ≤ i → closer <+: c.drop i → i + 2 = c.length

theorem isBlock_iff : IsBlock c ↔ ∃ b, c = opener ++ b ++ closer ∧ ¬ closer <:+: b := by
  constructor
  · rintro ⟨hopens, ⟨v, rfl⟩, hfour, hshortest⟩
    have hlength : (v ++ closer).length = v.length + 2 := List.length_append
    have hv : opener.length ≤ v.length := by
      show 2 ≤ v.length
      omega
    obtain ⟨b, rfl⟩ := List.prefix_of_prefix_length_le hopens (List.prefix_append v closer) hv
    refine ⟨b, rfl, ?_⟩
    rintro ⟨u, w, rfl⟩
    -- a closing mark inside would end the comment earlier
    have hend := hshortest (opener ++ u).length (by simp [opener]) (by simp)
    simp only [List.length_append, opener, closer, List.length_cons, List.length_nil] at hend
    omega
  · rintro ⟨b, rfl, hb⟩
    refine ⟨⟨b ++ closer, by simp⟩, List.suffix_append _ _, by simp [opener, closer], ?_⟩
    intro i hi hat
    have hlength := hat.length_le
    obtain ⟨k, rfl⟩ := Nat.exists_eq_add_of_le hi
    rw [List.append_assoc, show 2 = opener.length from rfl, List.drop_length_add_append] at hat
    obtain ⟨j, hj, hfirst⟩ := exists_firstMark?_le (List.cons_ne_nil _ _) hat
    have hclosing := firstMark?_append_mark closer_ne hb []
    rw [List.append_nil] at hclosing
    obtain rfl : b.length = j := Option.some.inj (hclosing.symm.trans hfirst)
    simp only [List.length_drop, List.length_append, opener, closer, List.length_cons,
      List.length_nil] at hlength ⊢
    omega

/-- The first opening mark of the text, if there is one, is never closed. -/
def Unclosed (s : List Char) : Prop :=
  ∀ i, firstMark? opener s = some i → ∀ j, i + 2 ≤ j → ¬ closer <+: s.drop j

theorem unclosed_append_opener (hp : ¬ opener <:+: p) (hr : ¬ closer <:+: r) :
    Unclosed (p ++ opener ++ r) := by
  intro i hfirst j hj hclose
  obtain rfl : p.length = i :=
    Option.some.inj ((firstMark?_append_mark opener_ne hp r).symm.trans hfirst)
  have hlength : (p ++ opener).length = p.length + 2 := List.length_append
  obtain ⟨k, rfl⟩ := Nat.exists_eq_add_of_le hj
  rw [← hlength, List.drop_length_add_append] at hclose
  exact hr (hclose.isInfix.trans (List.drop_suffix k r).isInfix)

/-- If the first opening mark is never closed, no opening mark is. -/
theorem unclosed_iff : Unclosed s ↔ ∀ r, opener ++ r <:+ s → ¬ closer <:+: r := by
  constructor
  · rintro h _ ⟨p, rfl⟩ ⟨b, t, rfl⟩
    have hopen := prefix_drop_append p opener (b ++ closer ++ t)
    have hclose := prefix_drop_append (p ++ opener ++ b) closer t
    simp only [List.append_assoc] at h hopen hclose
    obtain ⟨i, hi, hfirst⟩ := exists_firstMark?_le (List.cons_ne_nil _ _) hopen
    refine h i hfirst _ ?_ hclose
    simp only [List.length_append, opener, List.length_cons, List.length_nil]
    omega
  · intro h i hfirst
    obtain ⟨p, r, rfl, rfl, hp⟩ := (firstMark?_eq_some_iff opener_ne).1 hfirst
    have hr := h r ⟨p, (List.append_assoc p opener r).symm⟩
    exact unclosed_append_opener hp hr p.length hfirst

theorem Unclosed.stripBlocks_eq (h : Unclosed s) : stripBlocks s = s := by
  cases hfirst : firstMark? opener s with
  | none => exact stripBlocks_eq_self ((firstMark?_eq_none_iff (List.cons_ne_nil _ _)).1 hfirst)
  | some i =>
    obtain ⟨p, r, -, rfl, hp⟩ := (firstMark?_eq_some_iff opener_ne).1 hfirst
    have hclear : Clear opener (opener ++ r) p := clear_of_infix_free (by simp [opener]) hp
    rw [List.append_assoc] at h ⊢
    have hkeep := stripBlocks_of_not_closed (unclosed_iff.1 h r (List.suffix_append p _))
    exact (stripBlocksFrom_code_append hclear).trans (congrArg (p ++ ·) hkeep)

/-! ### Divisions -/

/-- A text cut into block comments and what stands between them: it has no comment any more, or a
comment stands behind some text. -/
inductive Division where
  | rest (s : List Char)
  | comment (before comment : List Char) (behind : Division)

namespace Division

/-- The text that is divided. -/
def text : Division → List Char
  | rest s => s
  | comment p c d => p ++ c ++ d.text

/-- The text with the newlines of each comment instead of the comment. -/
def code : Division → List Char
  | rest s => s
  | comment p c d => p ++ List.replicate (c.count '\n') '\n' ++ d.code

/-- Each comment is as short as it can be and opens with the first opening mark that there is, and
behind the last one no comment is closed. -/
def Leftmost : Division → Prop
  | rest s => Unclosed s
  | comment p c d => IsBlock c ∧ firstMark? opener (p ++ c) = some p.length ∧ d.Leftmost

theorem leftmost_comment_iff {d : Division} :
    (comment p c d).Leftmost ↔
      ∃ b, c = opener ++ b ++ closer ∧ ¬ opener <:+: p ∧ ¬ closer <:+: b ∧ d.Leftmost := by
  rw [Leftmost, isBlock_iff]
  constructor
  · rintro ⟨⟨b, rfl, hb⟩, hfirst, hd⟩
    obtain ⟨q, r, hlength, heq, hq⟩ := (firstMark?_eq_some_iff opener_ne).1 hfirst
    rw [List.append_assoc q] at heq
    obtain ⟨rfl, -⟩ := List.append_inj heq hlength.symm
    exact ⟨b, rfl, hq, hb, hd⟩
  · rintro ⟨b, rfl, hp, hb, hd⟩
    refine ⟨⟨b, rfl, hb⟩, ?_, hd⟩
    rw [List.append_assoc opener, ← List.append_assoc p]
    exact firstMark?_append_mark opener_ne hp (b ++ closer)

theorem exists_leftmost (s : List Char) : ∃ d : Division, d.text = s ∧ d.Leftmost := by
  induction hn : s.length using Nat.strong_induction_on generalizing s with
  | _ n ih =>
    cases hopen : firstMark? opener s with
    | none =>
      refine ⟨rest s, rfl, fun i hi => ?_⟩
      rw [hopen] at hi
      cases hi
    | some i =>
      obtain ⟨p, r, -, rfl, hp⟩ := (firstMark?_eq_some_iff opener_ne).1 hopen
      cases hclose : firstMark? closer r with
      | none =>
        have hr := (firstMark?_eq_none_iff (List.cons_ne_nil _ _)).1 hclose
        exact ⟨rest (p ++ opener ++ r), rfl, unclosed_append_opener hp hr⟩
      | some k =>
        obtain ⟨b, t, -, rfl, hb⟩ := (firstMark?_eq_some_iff closer_ne).1 hclose
        obtain ⟨d, rfl, hd⟩ := ih t.length (by simp [← hn]; omega) t rfl
        have hleft := leftmost_comment_iff.2 ⟨b, rfl, hp, hb, hd⟩
        refine ⟨comment p (opener ++ b ++ closer) d, ?_, hleft⟩
        simp [text, opener, closer]

/-- Where a comment stands, there is an opening mark that is closed. -/
theorem not_unclosed_comment {d : Division} (p b : List Char) :
    ¬ Unclosed (comment p (opener ++ b ++ closer) d).text := by
  intro h
  refine unclosed_iff.1 h (b ++ closer ++ d.text) ⟨p, ?_⟩ ⟨b, d.text, rfl⟩
  simp [text]

/-- A text has one leftmost division only. -/
theorem Leftmost.unique {d e : Division} (hd : d.Leftmost) (he : e.Leftmost)
    (h : d.text = e.text) : d = e := by
  induction d generalizing e with
  | rest s =>
    cases e with
    | rest t => exact congrArg rest h
    | comment q c' e =>
      obtain ⟨b', rfl, -⟩ := leftmost_comment_iff.1 he
      have hs : Unclosed (rest s).text := hd
      rw [h] at hs
      exact absurd hs (not_unclosed_comment q b')
  | comment p c d ih =>
    obtain ⟨b, rfl, hp, hb, hd'⟩ := leftmost_comment_iff.1 hd
    cases e with
    | rest t =>
      have ht : Unclosed (rest t).text := he
      rw [← h] at ht
      exact absurd ht (not_unclosed_comment p b)
    | comment q c' e =>
      obtain ⟨b', rfl, hq, hb', he'⟩ := leftmost_comment_iff.1 he
      have hopen : p ++ opener ++ (b ++ closer ++ d.text) =
          q ++ opener ++ (b' ++ closer ++ e.text) := by simpa [text] using h
      obtain ⟨rfl, hbehind⟩ := append_mark_inj opener_ne hp hq hopen
      obtain ⟨rfl, hrest⟩ := append_mark_inj closer_ne hb hb' hbehind
      rw [ih hd' he' hrest]

/-- Removing block comments leaves the newlines of each comment of the leftmost division. -/
theorem Leftmost.stripBlocks_text {d : Division} (hd : d.Leftmost) :
    stripBlocks d.text = d.code := by
  induction d with
  | rest s => exact Unclosed.stripBlocks_eq hd
  | comment p c d ih =>
    obtain ⟨b, rfl, hp, hb, hd⟩ := leftmost_comment_iff.1 hd
    have hcount : (opener ++ b ++ closer).count '\n' = b.count '\n' := by
      simp [opener, closer]
    have hblock := stripBlocks_block hp hb d.text
    rw [ih hd, List.filter_beq] at hblock
    rw [code, hcount, ← hblock]
    simp [text]

end Division

/-! ### Lines -/

/-- A line up to its first two slashes. -/
def beforeSlashes (l : List Char) : List Char :=
  match firstMark? slashes l with
  | some i => l.take i
  | none => l

theorem beforeSlashes_cons (z : Char) (l : List Char) :
    beforeSlashes (z :: l) = if slashes <+: z :: l then [] else z :: beforeSlashes l := by
  rw [beforeSlashes, firstMark?_cons]
  by_cases hz : slashes <+: z :: l
  · rw [if_pos hz, if_pos hz]
    rfl
  · rw [if_neg hz, if_neg hz, beforeSlashes]
    cases firstMark? slashes l <;> rfl

theorem stripLines_line (h : '\n' ∉ s) : stripLines s = beforeSlashes s := by
  induction s with
  | nil => rfl
  | cons z s ih =>
    rw [List.mem_cons, not_or] at h
    rw [beforeSlashes_cons, stripLines]
    split
    · next hz =>
      obtain ⟨t, ht⟩ := hz
      obtain ⟨rfl, rfl⟩ := List.cons.inj ht
      exact stripLinesFrom_comment_of_no_newline fun ht => h.2 (List.mem_cons_of_mem _ ht)
    · next hz =>
      rw [stripLinesFrom_code_cons hz]
      exact congrArg (z :: ·) (ih h.2)

theorem stripLines_intercalate {ls : List (List Char)} (h : ∀ l ∈ ls, '\n' ∉ l) :
    stripLines (['\n'].intercalate ls) = ['\n'].intercalate (ls.map beforeSlashes) := by
  induction ls with
  | nil => rfl
  | cons l ls ih =>
    have hl := stripLines_line (h l List.mem_cons_self)
    cases ls with
    | nil => rwa [List.map_singleton, List.intercalate_singleton, List.intercalate_singleton]
    | cons l' ls =>
      have hrest := ih fun l hl => h l (List.mem_cons_of_mem _ hl)
      rw [List.intercalate_cons_cons, List.append_assoc, List.singleton_append, stripLines,
        stripLinesFrom_append_newline]
      show stripLines l ++ '\n' :: stripLines _ = _
      rw [hl, hrest]
      simp only [List.map_cons, List.intercalate_cons_cons, List.append_assoc,
        List.singleton_append]

/-- Line by line, removing line comments cuts off what stands behind the first two slashes. -/
theorem stripLines_eq_intercalate (s : List Char) :
    stripLines s = ['\n'].intercalate ((s.splitOn '\n').map beforeSlashes) := by
  rw [← stripLines_intercalate fun l hl => Text.newline_notMem_of_mem_lines hl,
    List.intercalate_splitOn]

/-! ### Both steps -/

/-- **What the removal of comments leaves.**  A text has exactly one leftmost division into block
comments and what stands between them.  Without its comments the text is this division with the
newlines of each block comment instead of the comment, each line of it cut at its first two
slashes. -/
theorem strip_of_division (s : List Char) :
    ∃ d : Division, (d.text = s ∧ d.Leftmost) ∧
      (∀ e : Division, e.text = s → e.Leftmost → e = d) ∧
      strip s = ['\n'].intercalate ((d.code.splitOn '\n').map beforeSlashes) := by
  obtain ⟨d, rfl, hd⟩ := Division.exists_leftmost s
  refine ⟨d, ⟨rfl, hd⟩, fun e htext he => he.unique hd htext, ?_⟩
  rw [strip, hd.stripBlocks_text, stripLines_eq_intercalate]

end ModuleHierarchy.Comment
