/-
ModuleHierarchy/Proofs/Graph/Text.lean

The DOT text of a graph, line by line.  No line holds a newline, so that the lines of the text
are the lines that were written (`splitOn_dot`).  Since the line of a node is never the line of
an edge, the lines of the nodes end where those of the edges start, and each line can be read
back; so the text determines the graph (`dot_injective`).
-/
import ModuleHierarchy.Proofs.Graph.Line
import ModuleHierarchy.Proofs.Text.Line

namespace ModuleHierarchy.Graph

variable {g : Graph}

/-! ### The lines of the text -/

theorem toList_dot (g : Graph) :
    g.dot.toList = (g.dotLines.map String.toList).flatMap (· ++ ['\n']) := by
  rw [dot, String.toList_join, List.flatMap_map, List.flatMap_map]
  exact congrArg (List.flatMap · g.dotLines) (funext fun _ => String.toList_append)

theorem newline_notMem_of_mem_dotLines {l : String} (hl : l ∈ g.dotLines) : '\n' ∉ l.toList := by
  have hheader : ∀ l ∈ header, '\n' ∉ l.toList := by decide
  simp only [dotLines, List.mem_append, List.mem_map, List.mem_singleton] at hl
  rcases hl with ((hl | ⟨⟨name, i⟩, -, rfl⟩) | ⟨e, -, rfl⟩) | rfl
  · exact hheader l hl
  · exact newline_notMem_nodeLine i name
  · exact newline_notMem_edgeLine e
  · decide

/-- The lines of the text are the lines that were written; the last one ends in a newline. -/
theorem splitOn_dot (g : Graph) :
    g.dot.toList.splitOn '\n' = (g.dotLines ++ [""]).map String.toList := by
  rw [toList_dot, Text.splitOn_flatMap_newline, List.map_append]
  · rfl
  · intro l hl
    obtain ⟨line, hline, rfl⟩ := List.mem_map.1 hl
    exact newline_notMem_of_mem_dotLines hline

/-! ### Reading the graph back -/

/-- Where two lists start with elements that have a property and go on with elements that do not,
they are equal only part by part. -/
theorem append_inj_of_forall {α : Type} {p : α → Prop} {as as' bs bs' : List α}
    (has : ∀ a ∈ as, p a) (has' : ∀ a ∈ as', p a) (hbs : ∀ b ∈ bs, ¬ p b)
    (hbs' : ∀ b ∈ bs', ¬ p b) (h : as ++ bs = as' ++ bs') : as = as' ∧ bs = bs' := by
  induction as generalizing as' with
  | nil =>
    cases as' with
    | nil => exact ⟨rfl, h⟩
    | cons a' as' =>
      have hmem : a' ∈ bs := by
        rw [List.nil_append] at h
        rw [h]
        exact List.mem_cons_self
      exact absurd (has' a' List.mem_cons_self) (hbs a' hmem)
  | cons a as ih =>
    cases as' with
    | nil =>
      have hmem : a ∈ bs' := by
        rw [List.nil_append] at h
        rw [← h]
        exact List.mem_cons_self
      exact absurd (has a List.mem_cons_self) (hbs' a hmem)
    | cons a' as' =>
      obtain ⟨rfl, htail⟩ := List.cons.inj h
      obtain ⟨rfl, hrest⟩ := ih (fun b hb => has b (List.mem_cons_of_mem _ hb))
        (fun b hb => has' b (List.mem_cons_of_mem _ hb)) htail
      exact ⟨rfl, hrest⟩

/-- Whether a line is the line of a node. -/
def IsNodeLine (line : String) : Prop :=
  ∃ i name, line = nodeLine i name

theorem isNodeLine_of_mem {line : String} {nodes : List String}
    (h : line ∈ nodes.zipIdx.map fun (name, i) => nodeLine i name) : IsNodeLine line := by
  obtain ⟨⟨name, i⟩, -, rfl⟩ := List.mem_map.1 h
  exact ⟨i, name, rfl⟩

theorem not_isNodeLine_of_mem {line : String} {edges : List Edge}
    (h : line ∈ edges.map edgeLine) : ¬ IsNodeLine line := by
  obtain ⟨e, -, rfl⟩ := List.mem_map.1 h
  rintro ⟨i, name, heq⟩
  exact nodeLine_ne_edgeLine i name e heq.symm

theorem dotLines_injective : Function.Injective dotLines := by
  intro g g' h
  simp only [dotLines, List.append_assoc, List.append_cancel_left_eq] at h
  rw [← List.append_assoc, ← List.append_assoc, List.append_cancel_right_eq] at h
  obtain ⟨hnodes, hedges⟩ := append_inj_of_forall (fun _ => isNodeLine_of_mem)
    (fun _ => isNodeLine_of_mem) (fun _ => not_isNodeLine_of_mem)
    (fun _ => not_isNodeLine_of_mem) h
  have hzip : g.nodes.zipIdx = g'.nodes.zipIdx := by
    refine List.map_injective_iff.2 (fun a b hab => ?_) hnodes
    obtain ⟨hi, hname⟩ := nodeLine_inj hab
    exact Prod.ext hname hi
  have hnodes' : g.nodes = g'.nodes := by
    rw [← List.zipIdx_map_fst 0 g.nodes, hzip, List.zipIdx_map_fst]
  have hedges' : g.edges = g'.edges :=
    List.map_injective_iff.2 (fun _ _ hab => edgeLine_inj hab) hedges
  calc g = ⟨g.nodes, g.edges⟩ := rfl
    _ = ⟨g'.nodes, g'.edges⟩ := by rw [hnodes', hedges']
    _ = g' := rfl

/-- Graphs with the same DOT text are equal. -/
theorem dot_injective : Function.Injective dot := by
  intro g g' h
  have hlines :
      (g.dotLines ++ [""]).map String.toList = (g'.dotLines ++ [""]).map String.toList := by
    rw [← splitOn_dot, ← splitOn_dot, h]
  have hwritten := List.map_injective_iff.2 (fun _ _ => String.toList_inj.1) hlines
  rw [List.append_cancel_right_eq] at hwritten
  exact dotLines_injective hwritten

end ModuleHierarchy.Graph
