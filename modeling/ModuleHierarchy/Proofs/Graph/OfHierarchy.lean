/-
ModuleHierarchy/Proofs/Graph/OfHierarchy.lean

The graph of a hierarchy and the hierarchy it comes from.  Every parent and every child is a node,
so that the look-up of positions drops no edge: edge by edge, the graph joins the names of the
pairs of the hierarchy (`forall₂_joins_edges`).  So the graph tells the nodes and the edges of the
hierarchy, and with them the whole hierarchy where every child has an entry
(`eq_of_ofHierarchy_eq`).
-/
import Mathlib.Data.List.Forall2
import ModuleHierarchy.Graph.Dot
import ModuleHierarchy.Proofs.Hierarchy.WellFormed

namespace ModuleHierarchy.Graph

variable {nodes : List String} {parent child : String} {g h : Hierarchy}

@[simp] theorem nodes_ofHierarchy (h : Hierarchy) : (ofHierarchy h).nodes = h.nodes := rfl

/-- The edge stands for a pair of names: they are the nodes at its ends. -/
def Edge.Joins (nodes : List String) (e : Edge) (names : String × String) : Prop :=
  nodes[e.source]? = some names.1 ∧ nodes[e.target]? = some names.2

theorem Edge.rightUnique_joins (nodes : List String) :
    Relator.RightUnique (Edge.Joins nodes) := by
  rintro e names names' ⟨hsource, htarget⟩ ⟨hsource', htarget'⟩
  rw [hsource] at hsource'
  rw [htarget] at htarget'
  exact Prod.ext (Option.some.inj hsource') (Option.some.inj htarget')

theorem exists_idxOf?_of_mem {name : String} (h : name ∈ nodes) :
    ∃ i, nodes.idxOf? name = some i ∧ nodes[i]? = some name := by
  cases hi : nodes.idxOf? name with
  | none => exact absurd h (List.idxOf?_eq_none_iff.1 hi)
  | some i =>
    obtain ⟨hlt, hget, -⟩ := List.idxOf?_eq_some_iff.1 hi
    exact ⟨i, rfl, by rw [List.getElem?_eq_getElem hlt, hget]⟩

/-- Two nodes have an edge, and it joins them. -/
theorem exists_edge?_of_mem (hparent : parent ∈ nodes) (hchild : child ∈ nodes) :
    ∃ e, edge? nodes parent child = some e ∧ e.Joins nodes (parent, child) := by
  obtain ⟨i, hi, hi'⟩ := exists_idxOf?_of_mem hparent
  obtain ⟨j, hj, hj'⟩ := exists_idxOf?_of_mem hchild
  refine ⟨⟨i, j⟩, ?_, hi', hj'⟩
  rw [edge?, hi, hj]
  rfl

theorem forall₂_joins_filterMap {pairs : List (String × String)}
    (h : ∀ pair ∈ pairs, pair.1 ∈ nodes ∧ pair.2 ∈ nodes) :
    List.Forall₂ (Edge.Joins nodes)
      (pairs.filterMap fun (parent, child) => edge? nodes parent child) pairs := by
  induction pairs with
  | nil => exact .nil
  | cons pair pairs ih =>
    obtain ⟨parent, child⟩ := pair
    obtain ⟨hparent, hchild⟩ := h (parent, child) List.mem_cons_self
    obtain ⟨e, he, hjoins⟩ := exists_edge?_of_mem hparent hchild
    simp only [List.filterMap_cons, he]
    exact .cons hjoins (ih fun q hq => h q (List.mem_cons_of_mem _ hq))

/-- Edge by edge, the graph joins the names of the pairs of the hierarchy. -/
theorem forall₂_joins_edges (h : Hierarchy) :
    List.Forall₂ (Edge.Joins h.nodes) (ofHierarchy h).edges h.edges := by
  refine forall₂_joins_filterMap fun pair hpair => ?_
  obtain ⟨e, he, hmem⟩ := List.mem_flatMap.1 hpair
  obtain ⟨c, hc, rfl⟩ := List.mem_map.1 hmem
  exact ⟨Hierarchy.mem_nodes_iff.2 (.inl (List.mem_map_of_mem he)),
    Hierarchy.mem_nodes_iff.2 (.inr ⟨e, he, hc⟩)⟩

theorem edges_eq_of_ofHierarchy_eq (heq : ofHierarchy g = ofHierarchy h) : g.edges = h.edges := by
  have hnodes : g.nodes = h.nodes := congrArg Graph.nodes heq
  have hjoins := forall₂_joins_edges g
  rw [heq, hnodes] at hjoins
  exact (Edge.rightUnique_joins h.nodes).forall₂ hjoins (forall₂_joins_edges h)

/-- Where every child has an entry, the graph determines the hierarchy. -/
theorem eq_of_ofHierarchy_eq (hg : g.Ordered) (hh : h.Ordered) (hgc : g.ChildrenHaveEntries)
    (hhc : h.ChildrenHaveEntries) (heq : ofHierarchy g = ofHierarchy h) : g = h :=
  hg.eq_of_nodes_of_edges hh hgc hhc (congrArg Graph.nodes heq) (edges_eq_of_ofHierarchy_eq heq)

end ModuleHierarchy.Graph
