/-
ModuleHierarchy/Proofs/Extraction/LineEnding.lean

Both kinds of line endings yield the same.  With a carriage return in front of each newline a text
is alike to the text without them, so it has the same tokens and the same extraction.

A diagnostic also quotes a line of its source.  Each line has one more carriage return at its end,
the last line apart, and returns at the end of a line are not quoted (`line?_withReturns`).  So
nothing that is shown of a diagnostic differs, and neither does its text on the terminal
(`render_diagnostic_withReturns`).
-/
import ModuleHierarchy.Proofs.Diagnostic.Printed
import ModuleHierarchy.Proofs.Extraction.Inert

namespace ModuleHierarchy

/-! ### Lines with carriage returns -/

namespace Text

variable {c : Char} {l m s : List Char}

/-- The text with a carriage return in front of each newline. -/
def withReturns (s : List Char) : List Char :=
  s.flatMap fun c => if c = '\n' then ['\r', '\n'] else [c]

theorem withReturns_newline (s : List Char) :
    withReturns ('\n' :: s) = '\r' :: '\n' :: withReturns s := rfl

theorem withReturns_cons (hc : c ≠ '\n') (s : List Char) :
    withReturns (c :: s) = c :: withReturns s := by
  rw [withReturns, List.flatMap_cons, if_neg hc]
  rfl

/-- A line has one more carriage return at its end, or it is the last one. -/
theorem lines_withReturns (s : List Char) :
    List.Forall₂ (fun l m => l = m ∨ l = m ++ ['\r']) ((withReturns s).splitOn '\n')
      (s.splitOn '\n') := by
  induction s with
  | nil => exact .cons (.inl rfl) .nil
  | cons c s ih =>
    by_cases hc : c = '\n'
    · subst hc
      rw [withReturns_newline, List.splitOn_cons_eq_if_modifyHead '\r',
        List.splitOn_cons_eq_if_modifyHead '\n', List.splitOn_cons_eq_if_modifyHead '\n']
      exact .cons (.inr rfl) ih
    · have hnewline : ¬ (c == '\n') = true := by simpa using hc
      rw [withReturns_cons hc, List.splitOn_cons_eq_if_modifyHead c, if_neg hnewline,
        List.splitOn_cons_eq_if_modifyHead c, if_neg hnewline]
      generalize (withReturns s).splitOn '\n' = ls at ih
      generalize s.splitOn '\n' = ms at ih
      cases ih with
      | nil => exact .nil
      | cons hl hls => exact .cons (hl.imp (congrArg (c :: ·)) (congrArg (c :: ·))) hls

theorem dropTrailing_concat {p : Char → Bool} (hc : p c = true) (s : List Char) :
    dropTrailing p (s ++ [c]) = dropTrailing p s := by
  rw [dropTrailing, List.reverse_append, List.reverse_singleton, List.singleton_append,
    List.dropWhile_cons_of_pos hc]
  rfl

end Text

theorem Token.alike_withReturns (s : List Char) : Token.Alike (Text.withReturns s) s := by
  induction s with
  | nil => exact .nil
  | cons c s ih =>
    by_cases hc : c = '\n'
    · subst hc
      rw [Text.withReturns_newline]
      exact (ih.cons (.inl rfl)).put (by decide) (Text.atLineEnd_newline s)
    · rw [Text.withReturns_cons hc]
      exact ih.cons (.inl rfl)

/-! ### What is shown -/

/-- What a segment shows: a path, the number of a line and its text, or a note. -/
def Segment.shown : Segment → String × Nat × Option String ⊕ String
  | location place => .inl (place.source.path, place.line, place.text?)
  | note message => .inr message

/-- The text of a location depends on the names of its place and on the line that is quoted. -/
theorem Segment.render_location_congr {p q : Location} (hpath : p.source.path = q.source.path)
    (hline : p.line = q.line) (htext : p.text? = q.text?) :
    (location p).render = (location q).render := by
  rw [render_location, render_location, hpath, hline, htext]

/-- What a diagnostic shows. -/
def Diagnostic.shown (d : Diagnostic) :
    Severity × String × List (String × Nat × Option String ⊕ String) :=
  (d.severity, d.message, d.segments.map Segment.shown)

namespace Source

/-- The source with a carriage return in front of each newline. -/
def withReturns (s : Source) : Source :=
  ⟨s.path, String.ofList (Text.withReturns s.content.toList)⟩

theorem line?_withReturns (s : Source) (n : Nat) : s.withReturns.line? n = s.line? n := by
  cases n with
  | zero => rfl
  | succ n =>
    have hlines :
        List.Forall₂ (fun l m => l = m ∨ l = m ++ ['\r']) s.withReturns.lines s.lines := by
      rw [lines, withReturns, String.toList_ofList]
      exact Text.lines_withReturns s.content.toList
    have hquoted : s.withReturns.lines.map (Text.dropTrailing (· == '\r')) =
        s.lines.map (Text.dropTrailing (· == '\r')) := by
      rw [← List.forall₂_eq_eq_eq, List.forall₂_map_left_iff, List.forall₂_map_right_iff]
      refine hlines.imp ?_
      rintro l m (rfl | rfl)
      · rfl
      · exact Text.dropTrailing_concat (by decide) m
    have hget := congrArg (fun ls => ls[n]?.map String.ofList) hquoted
    simp only [List.getElem?_map, Option.map_map] at hget
    exact hget

theorem text?_withReturns (s : Source) (n : Nat) :
    (Location.mk s.withReturns n).text? = (Location.mk s n).text? :=
  s.line?_withReturns n

/-- The segments of a diagnostic look the same if its location does. -/
theorem map_segments_withReturns {β : Type} {view : Segment → β} {s : Source}
    (hview : ∀ n, view (.location ⟨s.withReturns, n⟩) = view (.location ⟨s, n⟩)) (w : Warning) :
    (w.diagnostic s.withReturns).segments.map view = (w.diagnostic s).segments.map view := by
  rw [Warning.diagnostic, Warning.diagnostic, List.map_cons, List.map_cons, hview]

theorem shown_diagnostic_withReturns (s : Source) (w : Warning) :
    (w.diagnostic s.withReturns).shown = (w.diagnostic s).shown := by
  have hview (n : Nat) : (Segment.location ⟨s.withReturns, n⟩).shown =
      (Segment.location ⟨s, n⟩).shown := by
    rw [Segment.shown, Segment.shown, text?_withReturns]
    rfl
  rw [Diagnostic.shown, Diagnostic.shown, map_segments_withReturns hview]
  rfl

theorem render_diagnostic_withReturns (s : Source) (w : Warning) :
    (w.diagnostic s.withReturns).render = (w.diagnostic s).render := by
  have hview (n : Nat) : (Segment.location ⟨s.withReturns, n⟩).render =
      (Segment.location ⟨s, n⟩).render :=
    Segment.render_location_congr rfl rfl (s.text?_withReturns n)
  rw [Diagnostic.render, Diagnostic.render, map_segments_withReturns hview]
  rfl

/-- **Line endings make no difference.**  A source and the same source with a carriage return in
front of each newline yield the same, and their diagnostics show the same, also on the terminal. -/
theorem extract_withReturns (s : Source) :
    s.withReturns.extract = s.extract ∧
      (s.withReturns.extract.diagnostics s.withReturns).map Diagnostic.shown =
        (s.extract.diagnostics s).map Diagnostic.shown ∧
      (s.withReturns.extract.diagnostics s.withReturns).map Diagnostic.render =
        (s.extract.diagnostics s).map Diagnostic.render := by
  have halike : Token.Alike s.withReturns.content.toList s.content.toList := by
    rw [withReturns, String.toList_ofList]
    exact Token.alike_withReturns s.content.toList
  have hextract : s.withReturns.extract = s.extract := by
    rw [extract, extract, tokens_eq_of_alike halike]
  have hmap {β : Type} {view : Diagnostic → β}
      (hview : ∀ w : Warning, view (w.diagnostic s.withReturns) = view (w.diagnostic s)) :
      (s.withReturns.extract.diagnostics s.withReturns).map view =
        (s.extract.diagnostics s).map view := by
    rw [hextract, Extraction.diagnostics, Extraction.diagnostics, List.map_map, List.map_map]
    exact List.map_congr_left fun w _ => hview w
  exact ⟨hextract, hmap s.shown_diagnostic_withReturns, hmap s.render_diagnostic_withReturns⟩

end Source

end ModuleHierarchy
