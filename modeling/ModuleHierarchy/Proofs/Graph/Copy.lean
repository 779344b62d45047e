/-
ModuleHierarchy/Proofs/Graph/Copy.lean

The graph as a copy of the hierarchy.  The nodes are increasing, so no name is a node twice, and a
name and its position determine each other (`idxOf?_eq_some_iff_getElem?`).  An edge is read back as
the names at its ends, and the edges of the graph, read in order, are the pairs of the hierarchy:

    (ofHierarchy h).edges.map (ofHierarchy h).names? = h.edges.map some     (`map_names?_edges`).

A pair of the hierarchy that is left out, made twice or turned round would be seen on the left side.
-/
import ModuleHierarchy.Proofs.Graph.OfHierarchy
import ModuleHierarchy.Proofs.Hierarchy.Run

namespace ModuleHierarchy.Graph

variable {g : Graph} {e : Edge} {names : List String} {pair : String × String} {name : String}
  {i : Nat} {h : Hierarchy}

/-! ### Positions -/

/-- In an increasing list, a name is found at the one position where it stands. -/
theorem idxOf?_eq_some_iff_getElem? (hs : Names.Increasing names) :
    names.idxOf? name = some i ↔ names[i]? = some name := by
  rw [List.idxOf?_eq_some_iff, List.getElem?_eq_some_iff]
  constructor
  · rintro ⟨hi, hname, -⟩
    exact ⟨hi, hname⟩
  · rintro ⟨hi, hname⟩
    refine ⟨hi, hname, fun j hj heq => ?_⟩
    have hij : j = i := (hs.nodup.getElem_inj_iff).1 (heq.trans hname.symm)
    omega

/-! ### Edges -/

/-- The names at the ends of an edge, if both ends are nodes. -/
def names? (g : Graph) (e : Edge) : Option (String × String) := do
  let parent ← g.nodes[e.source]?
  let child ← g.nodes[e.target]?
  return (parent, child)

theorem names?_of_joins (h : e.Joins g.nodes pair) : g.names? e = some pair := by
  rw [names?, h.1, h.2]
  rfl

/-- Read in order, the edges of the graph are the pairs of the hierarchy. -/
theorem map_names?_edges (h : Hierarchy) :
    (ofHierarchy h).edges.map (ofHierarchy h).names? = h.edges.map some := by
  rw [← List.forall₂_eq_eq_eq, List.forall₂_map_left_iff, List.forall₂_map_right_iff]
  exact (forall₂_joins_edges h).imp fun _ _ hjoins => names?_of_joins hjoins

theorem length_edges (h : Hierarchy) : (ofHierarchy h).edges.length = h.edgeCount := by
  rw [(forall₂_joins_edges h).length_eq, Hierarchy.edgeCount_eq_length_edges]

/-- Two edges between the same nodes would be one pair of the hierarchy twice. -/
theorem edges_nodup (hw : h.WellFormed) : (ofHierarchy h).edges.Nodup := by
  have hpairs : (h.edges.map some).Nodup := hw.edges_nodup.map fun _ _ => Option.some.inj
  rw [← map_names?_edges] at hpairs
  exact hpairs.of_map

/-! ### The copy -/

/-- **The graph is a copy of the hierarchy.**  Take a hierarchy that a run of operations ends in.
The nodes of its graph are, position by position, its names in strictly increasing byte order: the
keys and the children.  A name is found at the position where it stands.  The edges, read in order
with the names at their ends, are the pairs of parent and child in order, and none is listed twice.
There are as many nodes as names, and as many edges as the hierarchy counts. -/
theorem ofHierarchy_copies (hr : h.Reachable) :
    (∀ i : Nat, (ofHierarchy h).nodes[i]? = h.nodes[i]?) ∧
      (h.nodes.Pairwise fun a b => Text.bytes a < Text.bytes b) ∧
      (∀ n, n ∈ h.nodes ↔ n ∈ h.keys ∨ ∃ e ∈ h.entries, n ∈ e.children) ∧
      (∀ name i, h.nodes.idxOf? name = some i ↔ (ofHierarchy h).nodes[i]? = some name) ∧
      (ofHierarchy h).edges.map (ofHierarchy h).names? = h.edges.map some ∧
      (ofHierarchy h).edges.Nodup ∧
      (ofHierarchy h).nodes.length = h.nodes.length ∧
      (ofHierarchy h).edges.length = h.edgeCount := by
  have hnodes : Names.Increasing h.nodes := Names.increasing_ofList _
  refine ⟨fun i => rfl, Hierarchy.pairwise_bytes_lt hnodes, fun n => Hierarchy.mem_nodes_iff, ?_,
    map_names?_edges h, edges_nodup hr.wellFormed, rfl, length_edges h⟩
  intro name i
  exact idxOf?_eq_some_iff_getElem? hnodes

/-- Two modules that place each other, with children that have no entry and sort before and behind
all keys. -/
theorem ofHierarchy_copies_cycle :
    let h := Hierarchy.run [.addChild "b" "c", .addChild "c" "b", .addChild "b" "",
      .addChild "c" "é", .define "a", .addChild "b" "c"]
    h.Reachable ∧ (ofHierarchy h).nodes = ["", "a", "b", "c", "é"] ∧
      (ofHierarchy h).edges = [⟨2, 3⟩, ⟨2, 0⟩, ⟨3, 2⟩, ⟨3, 4⟩] ∧
      (ofHierarchy h).edges.map (ofHierarchy h).names? =
        [some ("b", "c"), some ("b", ""), some ("c", "b"), some ("c", "é")] ∧
      (ofHierarchy h).edges.Nodup ∧ (ofHierarchy h).edges.length = h.edgeCount := by
  intro h
  have hr : h.Reachable := ⟨_, rfl⟩
  have hpairs : h.edges = [("b", "c"), ("b", ""), ("c", "b"), ("c", "é")] := by decide
  obtain ⟨-, -, -, -, hnames, hnodup, -, hcount⟩ := ofHierarchy_copies hr
  rw [hpairs] at hnames
  exact ⟨hr, by decide, by decide, hnames, hnodup, hcount⟩

end ModuleHierarchy.Graph
