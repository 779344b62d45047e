/-
ModuleHierarchy/Proofs/Text/Line.lean

Texts line by line.  A text is at the end of a line if it is empty or starts with a newline
(`AtLineEnd`).  `Thinned s t` says that `s` is `t` with some characters left out, none of
them a newline.  Such a text has as many lines as the one it comes from, and each of its lines is
a sublist of the line at the same place (`Thinned.lines`).  What only leaves out characters other
than newlines can therefore not move anything to another line.
-/
import Mathlib.Data.List.Forall2

namespace ModuleHierarchy.Text

variable {s t u : List Char}

/-! ### Lines -/

theorem length_lines (s : List Char) : (s.splitOn '\n').length = s.count '\n' + 1 := by
  induction s with
  | nil => rfl
  | cons c s ih =>
    rw [List.splitOn_cons_eq_if_modifyHead, List.count_cons]
    split
    · rw [List.length_cons, ih]
    · rw [List.length_modifyHead, ih]

/-- Lines that are written one after the other, each with a newline behind it, are the lines of
the text, and an empty one follows them. -/
theorem splitOn_flatMap_newline {ls : List (List Char)} (h : ∀ l ∈ ls, '\n' ∉ l) :
    (ls.flatMap (· ++ ['\n'])).splitOn '\n' = ls ++ [[]] := by
  induction ls with
  | nil => rfl
  | cons l ls ih =>
    rw [List.flatMap_cons, List.append_assoc, List.singleton_append,
      List.splitOn_append_cons_self_of_not_mem (h l List.mem_cons_self),
      ih fun l' hl' => h l' (List.mem_cons_of_mem l hl'), List.cons_append]

/-- A newline at the end of a text opens one more line. -/
theorem lines_append_newline (s : List Char) :
    (s ++ ['\n']).splitOn '\n' = s.splitOn '\n' ++ [[]] :=
  List.splitOn_append_cons_self s []

theorem newline_notMem_of_mem_lines {l : List Char} (h : l ∈ s.splitOn '\n') : '\n' ∉ l := by
  induction s generalizing l with
  | nil =>
    rw [List.mem_singleton.1 h]
    exact List.not_mem_nil
  | cons c s ih =>
    obtain ⟨m, ms, hms⟩ := List.exists_cons_of_ne_nil (List.splitOn_ne_nil '\n' s)
    rw [List.splitOn_cons_eq_if_modifyHead] at h
    rw [hms] at h ih
    split at h
    · rcases List.mem_cons.1 h with rfl | h
      · exact List.not_mem_nil
      · exact ih h
    · next hc =>
      rw [List.modifyHead_cons] at h
      rcases List.mem_cons.1 h with rfl | h
      · rw [List.mem_cons, not_or]
        exact ⟨fun heq => hc (beq_iff_eq.2 heq.symm), ih List.mem_cons_self⟩
      · exact ih (List.mem_cons_of_mem m h)

theorem infix_intercalate {ls : List (List Char)} {l : List Char} (h : l ∈ ls) (sep : List Char) :
    l <:+: sep.intercalate ls := by
  induction ls with
  | nil => cases h
  | cons m ls ih =>
    cases ls with
    | nil =>
      have hm : sep.intercalate [m] = l := by
        rw [List.intercalate_singleton, List.mem_singleton.1 h]
      exact hm ▸ List.infix_refl _
    | cons m' ls =>
      rw [List.intercalate_cons_cons]
      rcases List.mem_cons.1 h with rfl | h
      · exact ⟨[], sep ++ sep.intercalate (m' :: ls), by rw [List.nil_append, List.append_assoc]⟩
      · exact (ih h).trans (List.suffix_append _ _).isInfix

theorem infix_of_mem_lines {l : List Char} (h : l ∈ s.splitOn '\n') : l <:+: s := by
  have hinside := infix_intercalate h ['\n']
  rwa [List.intercalate_splitOn] at hinside

/-- A map of characters that moves no newline can be made line by line. -/
theorem lines_map {f : Char → Char} (hf : ∀ c, f c = '\n' ↔ c = '\n') (s : List Char) :
    (s.map f).splitOn '\n' = (s.splitOn '\n').map (List.map f) := by
  induction s with
  | nil => rfl
  | cons c s ih =>
    rw [List.map_cons, List.splitOn_cons_eq_if_modifyHead, List.splitOn_cons_eq_if_modifyHead, ih]
    by_cases hc : c = '\n'
    · subst hc
      simp [(hf '\n').2 rfl]
    · obtain ⟨l, ls, hls⟩ := List.exists_cons_of_ne_nil (List.splitOn_ne_nil '\n' s)
      have hfc : f c ≠ '\n' := fun h => hc ((hf c).1 h)
      simp [hc, hfc, hls]

/-- At a place where one list has an element, a list related to it has one. -/
theorem exists_getElem?_of_forall₂ {α β : Type} {R : α → β → Prop} {as : List α} {bs : List β}
    (h : List.Forall₂ R as bs) {i : Nat} {a : α} (ha : as[i]? = some a) :
    ∃ b, bs[i]? = some b ∧ R a b := by
  obtain ⟨hi, rfl⟩ := List.getElem?_eq_some_iff.1 ha
  have hi' : i < bs.length := h.length_eq ▸ hi
  exact ⟨bs[i], List.getElem?_eq_getElem hi', h.get hi hi'⟩

/-! ### Ends of lines -/

/-- The text is empty or starts with a newline. -/
def AtLineEnd (t : List Char) : Prop :=
  ∀ c ∈ t.head?, c = '\n'

theorem atLineEnd_nil : AtLineEnd [] := by
  intro c hc
  cases hc

theorem atLineEnd_newline (t : List Char) : AtLineEnd ('\n' :: t) := by
  intro c hc
  exact (Option.some.inj hc).symm

theorem AtLineEnd.eq_nil_or (h : AtLineEnd t) : t = [] ∨ ∃ u, t = '\n' :: u := by
  cases t with
  | nil => exact .inl rfl
  | cons c u =>
    obtain rfl := h c rfl
    exact .inr ⟨u, rfl⟩

/-- What stands behind the first line of a text. -/
theorem atLineEnd_dropWhile (s : List Char) : AtLineEnd (s.dropWhile (· ≠ '\n')) := by
  intro c hc
  have hnot := List.head?_dropWhile_not (· ≠ '\n') s
  rw [Option.mem_def.1 hc] at hnot
  simpa using hnot

/-! ### Leaving out characters -/

/-- The first text is the second with some characters left out, none of them a newline. -/
inductive Thinned : List Char → List Char → Prop
  | nil : Thinned [] []
  | keep (c : Char) {s t : List Char} : Thinned s t → Thinned (c :: s) (c :: t)
  | leave {c : Char} (hc : c ≠ '\n') {s t : List Char} : Thinned s t → Thinned s (c :: t)

namespace Thinned

theorem refl (s : List Char) : Thinned s s := by
  induction s with
  | nil => exact .nil
  | cons c s ih => exact ih.keep c

theorem trans (hst : Thinned s t) (htu : Thinned t u) : Thinned s u := by
  induction htu generalizing s with
  | nil => exact hst
  | @keep c t u _ ih =>
    cases hst with
    | keep _ hst => exact (ih hst).keep c
    | leave hc hst => exact (ih hst).leave hc
  | leave hc _ ih => exact (ih hst).leave hc

theorem sublist (h : Thinned s t) : s.Sublist t := by
  induction h with
  | nil => exact List.Sublist.refl _
  | keep c _ ih => exact ih.cons_cons c
  | leave _ _ ih => exact ih.cons _

/-- Line by line, a thinned text is a sublist of the text it comes from. -/
theorem lines (h : Thinned s t) :
    List.Forall₂ List.Sublist (s.splitOn '\n') (t.splitOn '\n') := by
  induction h with
  | nil => exact .cons (List.Sublist.refl _) .nil
  | @keep c s t _ ih =>
    rw [List.splitOn_cons_eq_if_modifyHead, List.splitOn_cons_eq_if_modifyHead]
    split
    · exact .cons (List.Sublist.refl _) ih
    · generalize s.splitOn '\n' = ls at ih
      generalize t.splitOn '\n' = ms at ih
      cases ih with
      | nil => exact .nil
      | cons hl hls => exact .cons (hl.cons_cons c) hls
  | @leave c hc s t _ ih =>
    rw [List.splitOn_cons_eq_if_modifyHead c, if_neg (by simpa using hc)]
    generalize s.splitOn '\n' = ls at ih
    generalize t.splitOn '\n' = ms at ih
    cases ih with
    | nil => exact .nil
    | cons hl hls => exact .cons (hl.cons c) hls

theorem count_newline (h : Thinned s t) : s.count '\n' = t.count '\n' := by
  have hlines := h.lines.length_eq
  rw [length_lines, length_lines] at hlines
  exact Nat.succ.inj hlines

end Thinned

/-- What is left of a text at the end of a line is still there, since no newline is left out. -/
theorem AtLineEnd.of_thinned (ht : AtLineEnd t) (h : Thinned s t) : AtLineEnd s := by
  rcases ht.eq_nil_or with rfl | ⟨u, rfl⟩
  · cases h
    exact atLineEnd_nil
  · cases h with
    | keep _ _ => exact atLineEnd_newline _
    | leave hc _ => exact absurd rfl hc

end ModuleHierarchy.Text
