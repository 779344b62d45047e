/-
ModuleHierarchy/Proofs/Comment/Glue.lean

Removing comments from a text that has lost its comments already.  No two slashes in a row are left
in it (`not_slashes_infix_strip`), but a block comment may be: without the comment in `//*a*/*`, the
slash in front of it and the star behind it make an opening mark.  For that the text needs a slash
in front of an opening mark and a star behind a closing one.  If it lacks `//*` or `*/*`, then

    strip (strip s) = strip s,

for each opening mark that is left stands behind the last block comment of the leftmost division and
is never closed (`Division.Leftmost.unclosed_code`), and removing line comments closes none
(`Unclosed.stripLines`).  The same holds of each line on its own, so that the tokens of a source,
whose lines are stripped again before they are cut, are the tokens of its lines as they are.
-/
import ModuleHierarchy.Proofs.Comment.Division
import ModuleHierarchy.Proofs.Extraction.Comment

namespace ModuleHierarchy.Comment

variable {p q r s t l : List Char} {x y : Char}

/-! ### What is left of marks when line comments are removed -/

theorem atLineEnd_stripLinesFrom_comment (s : List Char) :
    Text.AtLineEnd (stripLinesFrom .comment s) := by
  induction s with
  | nil => exact Text.atLineEnd_nil
  | cons c s ih =>
    by_cases hc : c = '\n'
    · subst hc
      exact Text.atLineEnd_newline _
    · rw [stripLinesFrom_comment_cons hc]
      exact ih

/-- What is left starts with the first character of the text, or at the end of a line. -/
theorem exists_cons_of_stripLinesFrom_code (hy : y ≠ '\n') (h : stripLinesFrom .code s = y :: r) :
    ∃ t, s = y :: t ∧ stripLinesFrom .code t = r := by
  cases s with
  | nil => cases h
  | cons c s =>
    by_cases hslashes : slashes <+: c :: s
    · obtain ⟨t, ht⟩ := hslashes
      obtain ⟨rfl, rfl⟩ := List.cons.inj ht
      have hend := atLineEnd_stripLinesFrom_comment t
      have hline : stripLinesFrom .comment t = y :: r := h
      rw [hline] at hend
      exact absurd (hend y rfl) hy
    · rw [stripLinesFrom_code_cons hslashes] at h
      obtain ⟨rfl, rfl⟩ := List.cons.inj h
      exact ⟨s, rfl, rfl⟩

/-- No two slashes in a row are left. -/
theorem not_slashes_infix_stripLinesFrom (g : Region) (s : List Char) :
    ¬ slashes <:+: stripLinesFrom g s := by
  fun_induction stripLinesFrom g s with
  | case1 s ih => exact ih
  | case2 c s hc ih =>
    rw [slashes, mark_infix_cons]
    rintro (⟨rfl, hhead⟩ | hinside)
    · obtain ⟨r, hr⟩ := List.head?_eq_some_iff.1 hhead
      obtain ⟨t, rfl, -⟩ := exists_cons_of_stripLinesFrom_code slash_ne_newline hr
      exact hc t rfl rfl
    · exact ih hinside
  | case3 s ih =>
    rw [slashes, mark_infix_cons]
    rintro (⟨hslash, -⟩ | hinside)
    · exact slash_ne_newline hslash
    · exact ih hinside
  | case4 c s hc ih => exact ih
  | case5 => decide

theorem not_slashes_infix_strip (s : List Char) : ¬ slashes <:+: strip s :=
  not_slashes_infix_stripLinesFrom .code (stripBlocks s)

/-- A mark that is left was there before, and what follows it is what is left of what followed. -/
theorem exists_suffix_of_stripLinesFrom (hy : y ≠ '\n') (g : Region) (s : List Char)
    (h : [x, y] ++ r <:+ stripLinesFrom g s) :
    ∃ t, [x, y] ++ t <:+ s ∧ stripLinesFrom .code t = r := by
  -- the mark starts with a character that is kept, or stands behind it
  have hkeep (c : Char) {s : List Char} (h : [x, y] ++ r <:+ c :: stripLinesFrom .code s)
      (ih : [x, y] ++ r <:+ stripLinesFrom .code s →
        ∃ t, [x, y] ++ t <:+ s ∧ stripLinesFrom .code t = r) :
      ∃ t, [x, y] ++ t <:+ c :: s ∧ stripLinesFrom .code t = r := by
    rcases List.suffix_cons_iff.1 h with heq | h
    · obtain ⟨rfl, hcode⟩ := List.cons.inj heq
      obtain ⟨t, rfl, hr⟩ := exists_cons_of_stripLinesFrom_code hy hcode.symm
      exact ⟨t, List.suffix_refl _, hr⟩
    · obtain ⟨t, ht, hr⟩ := ih h
      exact ⟨t, ht.trans (List.suffix_cons c s), hr⟩
  fun_induction stripLinesFrom g s with
  | case1 s ih =>
    obtain ⟨t, ht, hr⟩ := ih h
    exact ⟨t, ht.trans (List.suffix_append slashes s), hr⟩
  | case2 c s hc ih => exact hkeep c h ih
  | case3 s ih => exact hkeep '\n' h ih
  | case4 c s hc ih =>
    obtain ⟨t, ht, hr⟩ := ih h
    exact ⟨t, ht.trans (List.suffix_cons c s), hr⟩
  | case5 => exact absurd (List.suffix_nil.1 h) (List.cons_ne_nil _ _)

/-! ### Texts in which no block comment is closed -/

theorem Unclosed.stripLines (h : Unclosed s) : Unclosed (stripLines s) := by
  refine unclosed_iff.2 fun r hr hclose => ?_
  obtain ⟨t, ht, rfl⟩ := exists_suffix_of_stripLinesFrom star_ne_newline .code s hr
  obtain ⟨w, hw⟩ : ∃ w, closer ++ w <:+ stripLinesFrom .code t := by
    obtain ⟨u, w, huw⟩ := hclose
    exact ⟨w, u, by rw [← huw, List.append_assoc]⟩
  obtain ⟨v, hv, -⟩ := exists_suffix_of_stripLinesFrom slash_ne_newline .code t hw
  exact unclosed_iff.1 h t ht ((List.prefix_append closer v).isInfix.trans hv.isInfix)

theorem Unclosed.of_isInfix (h : Unclosed s) (hl : l <:+: s) : Unclosed l := by
  obtain ⟨a, b, rfl⟩ := hl
  refine unclosed_iff.2 fun r hr hclose => ?_
  obtain ⟨p, rfl⟩ := hr
  refine unclosed_iff.1 h (r ++ b) ⟨a ++ p, by simp⟩ ?_
  exact hclose.trans (List.prefix_append r b).isInfix

/-- A text in front of which no opening mark arises. -/
theorem Unclosed.append (h : Unclosed t) (hp : Clear opener t p) : Unclosed (p ++ t) := by
  induction p with
  | nil => exact h
  | cons c p ih =>
    obtain ⟨hc, hp⟩ := hp
    refine unclosed_iff.2 fun r hr => ?_
    rcases List.suffix_cons_iff.1 hr with heq | hr
    · exact absurd ⟨r, heq⟩ hc
    · exact unclosed_iff.1 (ih hp) r hr

theorem Unclosed.strip_eq (h : Unclosed s) (hs : ¬ slashes <:+: s) : strip s = s := by
  rw [strip, h.stripBlocks_eq, stripLines_eq_self hs]

/-! ### Glue -/

theorem clear_newlines (n : Nat) (t : List Char) : Clear opener t (List.replicate n '\n') := by
  have hslash : '/' ∉ List.replicate n '\n' := fun h =>
    slash_ne_newline (List.eq_of_mem_replicate h)
  refine clear_of_ends (fun hlast => absurd (List.mem_of_getLast? hlast) hslash) fun hinside => ?_
  exact hslash (hinside.subset List.mem_cons_self)

/-- A star that stands in front of all lines is there without them. -/
theorem star_of_newlines {n : Nat} (h : (List.replicate n '\n' ++ t).head? = some '*') :
    t.head? = some '*' := by
  cases n with
  | zero => exact h
  | succ n => exact absurd (Option.some.inj h) star_ne_newline.symm

namespace Division

variable {d : Division}

/-- If a comment is followed by a star once block comments are removed, there is a star behind the
closing mark of some comment. -/
theorem Leftmost.star_behind (hd : d.Leftmost) (h : d.code.head? = some '*') :
    closer ++ ['*'] <:+: closer ++ d.text := by
  induction d with
  | rest s =>
    obtain ⟨u, rfl⟩ := List.head?_eq_some_iff.1 h
    exact ⟨[], u, by simp [text]⟩
  | comment p c d ih =>
    obtain ⟨b, rfl, -, -, hbehind⟩ := leftmost_comment_iff.1 hd
    cases p with
    | cons z p =>
      obtain rfl : z = '*' := Option.some.inj h
      exact ⟨[], p ++ (opener ++ b ++ closer) ++ d.text, by simp [text]⟩
    | nil =>
      rw [code, List.nil_append] at h
      refine (ih hbehind (star_of_newlines h)).trans ⟨closer ++ opener ++ b, [], ?_⟩
      simp [text]

/-- Where no mark arises from glue, each opening mark that is left when block comments are removed
stands behind the last comment. -/
theorem Leftmost.unclosed_code (hd : d.Leftmost)
    (hglue : ¬ ('/' :: opener <:+: d.text ∧ closer ++ ['*'] <:+: d.text)) : Unclosed d.code := by
  induction d with
  | rest s => exact hd
  | comment p c d ih =>
    obtain ⟨b, rfl, hp, -, hd⟩ := leftmost_comment_iff.1 hd
    have hbehind : closer ++ d.text <:+: (comment p (opener ++ b ++ closer) d).text :=
      ⟨p ++ opener ++ b, [], by simp [text]⟩
    have hrest : Unclosed d.code := by
      refine ih hd fun h => hglue ?_
      have htext := (List.suffix_append closer d.text).isInfix.trans hbehind
      exact ⟨h.1.trans htext, h.2.trans htext⟩
    have hlines := hrest.append (clear_newlines ((opener ++ b ++ closer).count '\n') d.code)
    rw [code, List.append_assoc]
    refine hlines.append (clear_of_ends (fun hlast hhead => hglue ?_) hp)
    -- the text in front of the comment ends with a slash, and a star is to follow
    constructor
    · obtain ⟨q, rfl⟩ := List.getLast?_eq_some_iff.1 hlast
      exact ⟨q, b ++ closer ++ d.text, by simp [text]⟩
    · exact (hd.star_behind (star_of_newlines hhead)).trans hbehind

end Division

theorem unclosed_strip (hglue : ¬ ('/' :: opener <:+: s ∧ closer ++ ['*'] <:+: s)) :
    Unclosed (strip s) := by
  obtain ⟨d, rfl, hd⟩ := Division.exists_leftmost s
  rw [strip, hd.stripBlocks_text]
  exact (hd.unclosed_code hglue).stripLines

/-- Without glue, each part of the stripped text stays as it is. -/
theorem strip_of_infix_strip (hglue : ¬ ('/' :: opener <:+: s ∧ closer ++ ['*'] <:+: s))
    (hl : l <:+: strip s) : strip l = l :=
  ((unclosed_strip hglue).of_isInfix hl).strip_eq fun h => not_slashes_infix_strip s (h.trans hl)

/-! ### Removing comments again -/

/-- The tokens of a source are those of its lines without comments as they are. -/
theorem tokens_of_no_glue {src : Source} (hglue : ¬ ('/' :: opener <:+: src.content.toList ∧
      closer ++ ['*'] <:+: src.content.toList)) :
    src.tokens =
      ((src.code.splitOn '\n').zipIdx 1).flatMap fun (l, n) => Token.ofChars n (Text.trim l) := by
  have hcode : ¬ ('/' :: opener <:+: src.content.toList.map Text.plainSpace ∧
      closer ++ ['*'] <:+: src.content.toList.map Text.plainSpace) := fun h =>
    hglue ⟨Source.infix_of_map_plainSpace (by decide) (by decide) h.1,
      Source.infix_of_map_plainSpace (by decide) (by decide) h.2⟩
  rw [Source.tokens, Token.ofText]
  refine List.flatMap_congr fun ⟨l, n⟩ hl => ?_
  have hline : strip l = l :=
    strip_of_infix_strip hcode (Text.infix_of_mem_lines (List.fst_mem_of_mem_zipIdx hl))
  change Token.ofChars n (Text.trim (strip l)) = _
  rw [hline]

/-- **A second removal of comments finds nothing, unless the first glues marks together.**  Without
its comments a text has no two slashes in a row.  If it lacks `//*` or `*/*`, removing comments
again changes neither the whole of it nor any line of it.  So what is cut into tokens is all that
the first removal left. -/
theorem strip_strip_of_no_glue (s : List Char) :
    ¬ "//".toList <:+: strip s ∧
      (¬ ("//*".toList <:+: s ∧ "*/*".toList <:+: s) →
        strip (strip s) = strip s ∧ ∀ l ∈ (strip s).splitOn '\n', strip l = l) ∧
      ∀ src : Source,
        ¬ ("//*".toList <:+: src.content.toList ∧ "*/*".toList <:+: src.content.toList) →
        src.tokens = ((src.code.splitOn '\n').zipIdx 1).flatMap fun (l, n) =>
          Token.ofChars n (Text.trim l) := by
  refine ⟨not_slashes_infix_strip s, fun hglue => ⟨?_, fun l hl => ?_⟩, fun src hglue => ?_⟩
  · exact strip_of_infix_strip hglue (List.infix_refl _)
  · exact strip_of_infix_strip hglue (Text.infix_of_mem_lines hl)
  · exact tokens_of_no_glue hglue

/-- A star behind a block comment, slashes inside and behind one, and an opening mark that is never
closed. -/
theorem strip_strip_unclosed :
    let s := "a /*b*/* c // */\n/*/ d */ e /* f".toList
    ¬ ("//*".toList <:+: s ∧ "*/*".toList <:+: s) ∧
      strip s = "a * c \n e /* f".toList ∧ strip (strip s) = "a * c \n e /* f".toList ∧
      strip " e /* f".toList = " e /* f".toList ∧
      Source.tokens ⟨"top.sv", String.ofList s⟩ =
        [⟨.ident, "a", 1⟩, ⟨.symbol, "*", 1⟩, ⟨.ident, "c", 1⟩, ⟨.ident, "e", 2⟩,
          ⟨.symbol, "/", 2⟩, ⟨.symbol, "*", 2⟩, ⟨.ident, "f", 2⟩] := by
  intro s
  have hglue : ¬ ("//*".toList <:+: s ∧ "*/*".toList <:+: s) := by decide +kernel
  have hstrip : strip s = "a * c \n e /* f".toList := by decide +kernel
  obtain ⟨-, hagain, htokens⟩ := strip_strip_of_no_glue s
  obtain ⟨htwice, hlines⟩ := hagain hglue
  refine ⟨hglue, hstrip, htwice.trans hstrip, hlines _ (by decide +kernel), ?_⟩
  refine (htokens ⟨"top.sv", String.ofList s⟩ (by decide +kernel)).trans ?_
  decide +kernel

-- what is left around the first comment opens a comment that the star and the slash behind it close
example : strip "//*a*/* b */".toList = "/* b */".toList ∧ strip "/* b */".toList = [] := by decide

end ModuleHierarchy.Comment
