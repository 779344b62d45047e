/-
ModuleHierarchy/Proofs/Extraction/Comment.lean

What a comment holds has no influence on what a source yields.  Two sources of one path that
differ only inside a comment have the same code (`code_block_comment`, `code_line_comment`), and
sources with the same code have the same tokens, so both passes and all warnings are the same.
Only the locations of the diagnostics name different sources, so diagnostics are compared by
their `outline`, which keeps of a location the number of its line.
-/
import ModuleHierarchy.Extraction
import ModuleHierarchy.Graph.Dot
import ModuleHierarchy.Proofs.Comment.Closed

namespace ModuleHierarchy

/-! ### Outlines -/

/-- What a segment says apart from the source: the number of a line, or a note. -/
def Segment.outline : Segment → Nat ⊕ String
  | location place => .inl place.line
  | note message => .inr message

/-- What a diagnostic says apart from the source. -/
def Diagnostic.outline (d : Diagnostic) : Severity × String × List (Nat ⊕ String) :=
  (d.severity, d.message, d.segments.map Segment.outline)

/-- The source only enters the location of a diagnostic. -/
theorem Warning.outline_diagnostic (s₁ s₂ : Source) (w : Warning) :
    (w.diagnostic s₁).outline = (w.diagnostic s₂).outline := by
  simp [diagnostic, Diagnostic.outline, Segment.outline]

namespace Source

variable {s₁ s₂ : Source}

/-- Two sources yield the same: the hierarchy, its DOT text, and the diagnostics in order, up to
the source that they point at. -/
structure SameReport (s₁ s₂ : Source) : Prop where
  hierarchy : s₁.extract.hierarchy = s₂.extract.hierarchy
  dot : s₁.extract.hierarchy.dot = s₂.extract.hierarchy.dot
  diagnostics : (s₁.extract.diagnostics s₁).map Diagnostic.outline =
    (s₂.extract.diagnostics s₂).map Diagnostic.outline

theorem SameReport.of_tokens (h : s₁.tokens = s₂.tokens) : SameReport s₁ s₂ := by
  have hextract : s₁.extract = s₂.extract := by
    rw [extract, extract, h]
  refine ⟨by rw [hextract], by rw [hextract], ?_⟩
  rw [hextract, Extraction.diagnostics, Extraction.diagnostics, List.map_map, List.map_map]
  exact List.map_congr_left fun w _ => w.outline_diagnostic s₁ s₂

theorem SameReport.of_code (h : s₁.code = s₂.code) : SameReport s₁ s₂ :=
  .of_tokens (congrArg Token.ofText h)

/-! ### Marks and no-break spaces -/

theorem infix_of_map_plainSpace {m s : List Char} (hspace : ' ' ∉ m) (hnoBreak : '\xa0' ∉ m)
    (h : m <:+: s.map Text.plainSpace) : m <:+: s := by
  refine Comment.infix_of_infix_map (fun c hc _ => (Text.plainSpace_eq_iff ?_ ?_).1) h
  · rintro rfl
    exact hspace hc
  · rintro rfl
    exact hnoBreak hc

theorem count_map_plainSpace (s : List Char) :
    (s.map Text.plainSpace).count '\n' = s.count '\n' := by
  rw [List.count_eq_countP, List.countP_map, List.count_eq_countP]
  refine List.countP_congr fun x _ => ?_
  simp [Text.plainSpace_eq_iff]

theorem closed_map_plainSpace {s : List Char} (h : Comment.Closed s) :
    Comment.Closed (s.map Text.plainSpace) :=
  h.map (fun _ => Text.plainSpace_eq_iff (by decide) (by decide))
    (fun _ => Text.plainSpace_eq_iff (by decide) (by decide))

/-! ### Comments behind a closed text -/

variable {a c : String}

theorem code_block_comment (path : String) (ha : Comment.Closed a.toList)
    (hc : ¬ Comment.closer <:+: c.toList) (b : String) :
    code ⟨path, a ++ "/*" ++ c ++ "*/" ++ b⟩ =
      Comment.stripLines (Comment.stripBlocks (a.toList.map Text.plainSpace) ++
        List.replicate (c.toList.count '\n') '\n' ++
        Comment.stripBlocks (b.toList.map Text.plainSpace)) := by
  have hopener : "/*".toList.map Text.plainSpace = Comment.opener := by decide
  have hcloser : "*/".toList.map Text.plainSpace = Comment.closer := by decide
  have hbody : ¬ Comment.closer <:+: c.toList.map Text.plainSpace :=
    fun h => hc (infix_of_map_plainSpace (by decide) (by decide) h)
  rw [code]
  simp only [String.toList_append, List.map_append, hopener, hcloser]
  rw [Comment.strip_block_comment (closed_map_plainSpace ha) hbody, List.filter_beq,
    count_map_plainSpace]

theorem code_line_comment (path : String) (ha : Comment.Closed a.toList) (hc : '\n' ∉ c.toList)
    (ho : ¬ Comment.opener <:+: "//".toList ++ c.toList) (b : String) :
    code ⟨path, a ++ "//" ++ c ++ "\n" ++ b⟩ =
      Comment.stripLines (Comment.stripBlocks (a.toList.map Text.plainSpace) ++ Comment.slashes) ++
        '\n' :: Comment.strip (b.toList.map Text.plainSpace) := by
  have hslashes : "//".toList.map Text.plainSpace = Comment.slashes := by decide
  have hnewline : "\n".toList.map Text.plainSpace = ['\n'] := by decide
  have hline : '\n' ∉ c.toList.map Text.plainSpace := by
    rw [← List.count_eq_zero, count_map_plainSpace, List.count_eq_zero]
    exact hc
  have hbody : ¬ Comment.opener <:+: Comment.slashes ++ c.toList.map Text.plainSpace := by
    rw [← hslashes, ← List.map_append]
    exact fun h => ho (infix_of_map_plainSpace (by decide) (by decide) h)
  rw [code]
  simp only [String.toList_append, List.map_append, hslashes, hnewline]
  rw [List.append_assoc _ ['\n'], List.singleton_append,
    Comment.strip_line_comment (closed_map_plainSpace ha) hline hbody]

/-- **What a comment holds has no influence.**  Behind a closed text and in front of any text, a
block comment may hold any other text with as many newlines that does not close it, and a line
comment any other text on one line that opens no block comment: the hierarchy, its DOT text and
the diagnostics stay the same. -/
theorem sameReport_of_comment (path : String) (ha : Comment.Closed a.toList) (b c₁ c₂ : String) :
    (¬ Comment.closer <:+: c₁.toList → ¬ Comment.closer <:+: c₂.toList →
      c₁.toList.count '\n' = c₂.toList.count '\n' →
      SameReport ⟨path, a ++ "/*" ++ c₁ ++ "*/" ++ b⟩ ⟨path, a ++ "/*" ++ c₂ ++ "*/" ++ b⟩) ∧
    ('\n' ∉ c₁.toList → '\n' ∉ c₂.toList →
      ¬ Comment.opener <:+: "//".toList ++ c₁.toList →
      ¬ Comment.opener <:+: "//".toList ++ c₂.toList →
      SameReport ⟨path, a ++ "//" ++ c₁ ++ "\n" ++ b⟩ ⟨path, a ++ "//" ++ c₂ ++ "\n" ++ b⟩) := by
  refine ⟨fun hc₁ hc₂ hcount => .of_code ?_, fun hc₁ hc₂ ho₁ ho₂ => .of_code ?_⟩
  · rw [code_block_comment path ha hc₁, code_block_comment path ha hc₂, hcount]
  · rw [code_line_comment path ha hc₁ ho₁, code_line_comment path ha hc₂ ho₂]

theorem sameReport_of_comment_in_module :
    SameReport ⟨"top.sv", "module a; /* b */ /" ++ "/*" ++ "/ one\n" ++ "*/" ++ "b u ();"⟩
        ⟨"top.sv", "module a; /* b */ /" ++ "/*" ++ "module\nb;" ++ "*/" ++ "b u ();"⟩ ∧
      SameReport ⟨"top.sv", "module a; /* b */ /" ++ "//" ++ " */ one" ++ "\n" ++ "b u ();"⟩
        ⟨"top.sv", "module a; /* b */ /" ++ "//" ++ " module b;" ++ "\n" ++ "b u ();"⟩ := by
  have hcut : "module a; /* b */ /".toList = "module a; ".toList ++ Comment.opener ++
      " b ".toList ++ Comment.closer ++ " /".toList := by decide
  have ha : Comment.Closed "module a; /* b */ /".toList := by
    rw [hcut]
    exact .comment (by decide +kernel) (by decide +kernel) (.plain (by decide +kernel))
  have hblock := (sameReport_of_comment "top.sv" ha "b u ();" "/ one\n" "module\nb;").1
  have hline := (sameReport_of_comment "top.sv" ha "b u ();" " */ one" " module b;").2
  exact ⟨hblock (by decide +kernel) (by decide +kernel) (by decide),
    hline (by decide) (by decide) (by decide +kernel) (by decide +kernel)⟩

end Source

end ModuleHierarchy
