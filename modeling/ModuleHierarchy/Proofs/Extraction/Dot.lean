/-
ModuleHierarchy/Proofs/Extraction/Dot.lean

The DOT text of a hierarchy determines the hierarchy.  The text is made of the five lines above
the nodes, a line for each node, a line for each edge and the closing brace, whatever characters
the names are made of (`splitOn_dot_hierarchy`).  It determines the graph, and the graph
determines a hierarchy in which every child has an entry.  All that an extraction yields is of
this kind (`childrenHaveEntries_extract`), since only defined modules become children.
-/
import ModuleHierarchy.Proofs.Extraction.Assembly
import ModuleHierarchy.Proofs.Graph.OfHierarchy
import ModuleHierarchy.Proofs.Graph.Text
import ModuleHierarchy.Proofs.Hierarchy.Run

namespace ModuleHierarchy

theorem Source.childrenHaveEntries_extract (s : Source) :
    s.extract.hierarchy.ChildrenHaveEntries :=
  Extraction.childrenHaveEntries_ofTokens s.tokens

/-! ### The text -/

namespace Hierarchy

/-- The lines of the DOT text: five at the top, one for each node, one for each edge, and a
closing brace, behind which the text ends with a newline. -/
theorem splitOn_dot_hierarchy (h : Hierarchy) :
    ∃ edges, List.Forall₂ (Graph.Edge.Joins h.nodes) edges h.edges ∧
      h.dot.toList.splitOn '\n' = (Graph.header ++
        h.nodes.zipIdx.map (fun (name, i) => Graph.nodeLine i name) ++
        edges.map Graph.edgeLine ++ ["\x7d", ""]).map String.toList := by
  refine ⟨(Graph.ofHierarchy h).edges, Graph.forall₂_joins_edges h, ?_⟩
  rw [dot, Graph.splitOn_dot, Graph.dotLines, List.append_assoc]
  rfl

/-- **The DOT text determines the hierarchy.**  The text of any hierarchy consists of five fixed
lines, a line for each node with its position and its label, a line for each edge with the
positions of its ends, and a closing brace.  Two hierarchies that runs of operations end in and
in which every child has an entry are equal if their texts are; every hierarchy extracted from a
source is of this kind. -/
theorem dot_determines_hierarchy :
    (∀ h : Hierarchy, ∃ edges, List.Forall₂ (Graph.Edge.Joins h.nodes) edges h.edges ∧
      h.dot.toList.splitOn '\n' = (Graph.header ++
        h.nodes.zipIdx.map (fun (name, i) => Graph.nodeLine i name) ++
        edges.map Graph.edgeLine ++ ["\x7d", ""]).map String.toList) ∧
    Graph.header.length = 5 ∧
    (∀ g h : Hierarchy, g.Reachable → h.Reachable → g.ChildrenHaveEntries →
      h.ChildrenHaveEntries → g.dot = h.dot → g = h) ∧
    ∀ s : Source, s.extract.hierarchy.Reachable ∧ s.extract.hierarchy.ChildrenHaveEntries := by
  refine ⟨splitOn_dot_hierarchy, rfl, fun g h hg hh hgc hhc hdot => ?_, fun s => ⟨?_, ?_⟩⟩
  · have hgraph : Graph.ofHierarchy g = Graph.ofHierarchy h := Graph.dot_injective hdot
    exact Graph.eq_of_ofHierarchy_eq hg.wellFormed.ordered hh.wellFormed.ordered hgc hhc hgraph
  · exact reachable_empty.ofTokens s.tokens
  · exact s.childrenHaveEntries_extract

/-- Two runs with names that need escaping, with the same text. -/
theorem dot_determines_hierarchy_escaped_names :
    let g := run [.define "a\"\n", .addChild "l\\" "a\"\n", .addChild "l\\" "\n", .define "\n"]
    let h := run [.addChild "l\\" "a\"\n", .assemble ["\n", "a\"\n"], .addChild "l\\" "l\\",
      .addChild "l\\" "\n"]
    g.ChildrenHaveEntries ∧ h.ChildrenHaveEntries ∧ g.dot = h.dot ∧ g = h := by
  intro g h
  have hg : g.ChildrenHaveEntries := by unfold ChildrenHaveEntries; decide
  have hh : h.ChildrenHaveEntries := by unfold ChildrenHaveEntries; decide
  have hdot : g.dot = h.dot := by decide +kernel
  exact ⟨hg, hh, hdot, dot_determines_hierarchy.2.2.1 g h ⟨_, rfl⟩ ⟨_, rfl⟩ hg hh hdot⟩

end Hierarchy

end ModuleHierarchy
