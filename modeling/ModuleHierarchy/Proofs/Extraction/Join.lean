/-
ModuleHierarchy/Proofs/Extraction/Join.lean

Texts that are joined by a newline.  Behind a closed text no comment reaches over the newline, so
the joined text without its comments is the two texts without theirs, joined by the newline.  The
tokens are read line by line, and hence those of the joined text are the tokens of the first,
followed by the tokens of the second further down:

    ofText (strip (a ++ '\n' :: b))
      = ofText (strip a) ++ (ofText (strip b)).map (moveDown (a.count '\n' + 1)).

The removal of comments keeps every newline, so that the lines of `a` can be counted before it or
after it.  An empty line in front of a text is the case of an empty `a`.
-/
import ModuleHierarchy.Proofs.Extraction.Comment
import ModuleHierarchy.Proofs.Token.Line

namespace ModuleHierarchy

namespace Token

variable {a : List Char}

/-! ### Joined texts -/

theorem ofText_append_newline (s t : List Char) :
    ofText (s ++ '\n' :: t) = ofText s ++ (ofText t).map (moveDown (s.count '\n' + 1)) := by
  rw [ofText, List.splitOn_append_cons_self, List.zipIdx_append, List.flatMap_append,
    flatMap_ofLine_add, Text.length_lines, ofText, ofText]

theorem ofText_strip_append_newline (ha : Comment.Closed a) (b : List Char) :
    ofText (Comment.strip (a ++ '\n' :: b)) =
      ofText (Comment.strip a) ++
        (ofText (Comment.strip b)).map (moveDown (a.count '\n' + 1)) := by
  rw [Comment.strip_append_newline ha, ofText_append_newline,
    (Comment.thinned_strip a).count_newline]

theorem ofText_strip_blank_lines (n : Nat) (b : List Char) :
    ofText (Comment.strip (List.replicate n '\n' ++ b)) =
      (ofText (Comment.strip b)).map (moveDown n) := by
  induction n with
  | zero => rw [List.replicate_zero, List.nil_append, moveDown_zero, List.map_id]
  | succ n ih =>
    have hempty : Comment.Closed [] := .plain (by decide)
    have hline := ofText_strip_append_newline hempty (List.replicate n '\n' ++ b)
    rw [List.nil_append] at hline
    rw [List.replicate_succ, List.cons_append, hline, ih, List.map_map, moveDown_moveDown]
    rfl

end Token

namespace Source

theorem tokens_append_newline {a : String} (ha : Comment.Closed a.toList) (b : String)
    (path path₁ path₂ : String) :
    tokens ⟨path, a ++ "\n" ++ b⟩ =
      tokens ⟨path₁, a⟩ ++
        (tokens ⟨path₂, b⟩).map (Token.moveDown (a.toList.count '\n' + 1)) := by
  have hnewline : "\n".toList.map Text.plainSpace = ['\n'] := by decide
  simp only [tokens, code, String.toList_append, List.map_append, hnewline]
  rw [List.append_assoc, List.singleton_append,
    Token.ofText_strip_append_newline (closed_map_plainSpace ha), count_map_plainSpace]

end Source

namespace Token

/-- **Joined by a newline, texts keep their tokens.**  Behind a closed text and a newline, any text
has the tokens that it has alone, further down by the lines of the first text.  So blank lines in
front of a text move its tokens down by their number and change nothing else.  The same holds of
sources, whatever their paths. -/
theorem tokens_joined_by_newline :
    (∀ a b : List Char, Comment.Closed a →
      ofText (Comment.strip (a ++ '\n' :: b)) =
        ofText (Comment.strip a) ++
          (ofText (Comment.strip b)).map (moveDown (a.count '\n' + 1))) ∧
    (∀ (n : Nat) (b : List Char),
      ofText (Comment.strip (List.replicate n '\n' ++ b)) =
        (ofText (Comment.strip b)).map (moveDown n)) ∧
    ∀ a b path path₁ path₂ : String, Comment.Closed a.toList →
      Source.tokens ⟨path, a ++ "\n" ++ b⟩ =
        Source.tokens ⟨path₁, a⟩ ++
          (Source.tokens ⟨path₂, b⟩).map (moveDown (a.toList.count '\n' + 1)) :=
  ⟨fun _ b ha => ofText_strip_append_newline ha b, ofText_strip_blank_lines,
    fun _ b path path₁ path₂ ha => Source.tokens_append_newline ha b path path₁ path₂⟩

/-- The first text ends in a line comment that holds an opening mark's slash, and the second starts
with a closing mark and never closes its own comment. -/
theorem tokens_joined_by_newline_open_comment :
    let a := "module /*\n*/ a; // b /".toList
    let b := "*/ b /* c\nendmodule".toList
    Comment.Closed a ∧
      ofText (Comment.strip (a ++ '\n' :: b)) =
        [⟨.keyword, "module", 1⟩, ⟨.ident, "a", 2⟩, ⟨.symbol, ";", 2⟩] ++
          [⟨.symbol, "*", 1⟩, ⟨.symbol, "/", 1⟩, ⟨.ident, "b", 1⟩, ⟨.symbol, "/", 1⟩,
            ⟨.symbol, "*", 1⟩, ⟨.ident, "c", 1⟩, ⟨.keyword, "endmodule", 2⟩].map (moveDown 2) := by
  intro a b
  have hcut : a = "module ".toList ++ Comment.opener ++ "\n".toList ++ Comment.closer ++
      " a; // b /".toList := by decide
  have ha : Comment.Closed a := by
    rw [hcut]
    exact .comment (by decide +kernel) (by decide +kernel) (.plain (by decide +kernel))
  have hfirst : ofText (Comment.strip a) =
      [⟨.keyword, "module", 1⟩, ⟨.ident, "a", 2⟩, ⟨.symbol, ";", 2⟩] := by decide +kernel
  have hsecond : ofText (Comment.strip b) =
      [⟨.symbol, "*", 1⟩, ⟨.symbol, "/", 1⟩, ⟨.ident, "b", 1⟩, ⟨.symbol, "/", 1⟩,
        ⟨.symbol, "*", 1⟩, ⟨.ident, "c", 1⟩, ⟨.keyword, "endmodule", 2⟩] := by decide +kernel
  have hjoined := tokens_joined_by_newline.1 a b ha
  rw [hfirst, hsecond] at hjoined
  exact ⟨ha, hjoined⟩

end Token

end ModuleHierarchy
