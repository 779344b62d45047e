/-
ModuleHierarchy/Proofs/Extraction/Assembly.lean

What the two passes leave for the final step, which is nothing.  The first pass gives every defined
module its entry, and the second takes no entry away, so that the final step defines in vain
(`assemble_scanned`):

    (scanned ts).assemble (definitions ts) = scanned ts.

Only defined modules are placed, so every child is defined and has an entry of its own.  The second
pass may well make an entry that is no definition, for a module it enters by a name that the first
pass passed over; but that is a parent, and the nodes are still the keys
(`nodes_eq_keys_scanned`).
-/
import ModuleHierarchy.Proofs.Extraction.Keys
import ModuleHierarchy.Proofs.Graph.OfHierarchy

namespace ModuleHierarchy

variable {defs : List String} {ts : List Token} {c n p : String}

/-! ### After both passes -/

namespace Scan

/-- The hierarchy that both passes over a list of tokens make of the empty one. -/
def scanned (ts : List Token) : Hierarchy :=
  addInstantiations (definitions ts) ts (defineDeclared ts ∅)

theorem contains_scanned_of_mem_definitions (h : n ∈ definitions ts) :
    (scanned ts).contains n = true := by
  rw [scanned, contains_addInstantiations, defineDeclared, Hierarchy.contains_defineAll]
  exact .inl (.inr (Names.mem_ofList.1 h))

/-- The final step has nothing left to do. -/
theorem assemble_scanned (ts : List Token) :
    (scanned ts).assemble (definitions ts) = scanned ts :=
  Hierarchy.defineAll_eq_self fun _ => contains_scanned_of_mem_definitions

theorem mem_definitions_of_mem_placedIn (h : c ∈ placedIn defs ts p) : c ∈ defs := by
  obtain ⟨i, parent, child, -, hplaced, -, rfl⟩ := mem_placedIn_iff.1 h
  have hp := of_decide_eq_true (Option.filter_eq_some_iff.1 hplaced).2
  exact hp.2.1

end Scan

/-! ### Children of an extraction -/

namespace Extraction

theorem hierarchy_ofTokens_empty (ts : List Token) :
    (ofTokens ts ∅).hierarchy = Scan.scanned ts :=
  Scan.assemble_scanned ts

/-- Only defined modules become children. -/
theorem mem_definitions_of_mem_childrenOf (h : c ∈ (ofTokens ts ∅).hierarchy.childrenOf p) :
    c ∈ Scan.definitions ts := by
  rw [childrenOf_ofTokens_empty] at h
  exact Scan.mem_definitions_of_mem_placedIn (List.mem_filter.1 (List.mem_eraseDups.1 h)).1

theorem childrenHaveEntries_ofTokens (ts : List Token) :
    (ofTokens ts ∅).hierarchy.ChildrenHaveEntries := by
  intro e he c hc
  have hordered : (ofTokens ts ∅).hierarchy.Ordered := ordered_ofTokens Hierarchy.ordered_empty
  have hchildren : (ofTokens ts ∅).hierarchy.childrenOf e.name = e.children := by
    rw [Hierarchy.childrenOf, hordered.mem_entries_iff.1 he]
    rfl
  rw [← hchildren] at hc
  exact mem_keys_ofTokens_empty.2 (.inl (mem_definitions_of_mem_childrenOf hc))

end Extraction

/-! ### Nodes and keys -/

namespace Scan

theorem hierarchy_extract (s : Source) : s.extract.hierarchy = scanned s.tokens := by
  rw [Source.extract, Extraction.hierarchy_ofTokens_empty]

theorem nodes_eq_keys_scanned (ts : List Token) : (scanned ts).nodes = (scanned ts).keys := by
  rw [← Extraction.hierarchy_ofTokens_empty]
  exact ((Extraction.ordered_ofTokens Hierarchy.ordered_empty).keys_eq_nodes
    (Extraction.childrenHaveEntries_ofTokens ts)).symm

/-- **The passes leave nothing to assemble.**  After both passes every child is defined and has an
entry, so that the nodes are the keys, as many as there are entries.  Every definition has an entry,
and the final step changes nothing.  Hence the graph of a source has no node without an entry. -/
theorem assembled_scanned (ts : List Token) :
    (∀ p, ∀ c ∈ (scanned ts).childrenOf p, c ∈ definitions ts ∧ c ∈ (scanned ts).keys) ∧
      (scanned ts).nodes = (scanned ts).keys ∧
      (scanned ts).nodes.length = (scanned ts).size ∧
      (∀ n ∈ definitions ts, n ∈ (scanned ts).keys) ∧
      (scanned ts).assemble (definitions ts) = scanned ts ∧
      ∀ s : Source, ∀ n ∈ (Graph.ofHierarchy s.extract.hierarchy).nodes,
        s.extract.hierarchy.contains n = true := by
  have hkeys : ∀ n ∈ definitions ts, n ∈ (scanned ts).keys := fun n hn =>
    Hierarchy.contains_iff_mem_keys.1 (contains_scanned_of_mem_definitions hn)
  refine ⟨fun p c hc => ?_, nodes_eq_keys_scanned ts, ?_, hkeys, assemble_scanned ts, ?_⟩
  · rw [← Extraction.hierarchy_ofTokens_empty] at hc
    have hdefined := Extraction.mem_definitions_of_mem_childrenOf hc
    exact ⟨hdefined, hkeys c hdefined⟩
  · rw [nodes_eq_keys_scanned, Hierarchy.keys, List.length_map, Hierarchy.size]
  · intro s n hn
    rw [Graph.nodes_ofHierarchy, hierarchy_extract, nodes_eq_keys_scanned] at hn
    rw [hierarchy_extract]
    exact Hierarchy.contains_iff_mem_keys.2 hn

/-- Behind `module module` a module `a` is entered that is not declared, with a child that is. -/
theorem assembled_scanned_undeclared_parent :
    let ts : List Token := [⟨.keyword, "module", 1⟩, ⟨.keyword, "module", 1⟩, ⟨.ident, "a", 1⟩,
      ⟨.ident, "b", 2⟩, ⟨.ident, "u", 2⟩, ⟨.symbol, "(", 2⟩, ⟨.keyword, "endmodule", 3⟩,
      ⟨.keyword, "module", 4⟩, ⟨.ident, "b", 4⟩, ⟨.keyword, "module", 5⟩, ⟨.ident, "b", 5⟩]
    "b" ∈ (scanned ts).childrenOf "a" ∧ "b" ∈ definitions ts ∧ "b" ∈ (scanned ts).keys ∧
      (scanned ts).nodes = ["a", "b", "module"] ∧ definitions ts = ["b", "module"] ∧
      (scanned ts).assemble (definitions ts) = scanned ts := by
  intro ts
  have hchild : "b" ∈ (scanned ts).childrenOf "a" := by decide +kernel
  have hkeys : (scanned ts).keys = ["a", "b", "module"] := by decide +kernel
  have hdefinitions : definitions ts = ["b", "module"] := by decide +kernel
  obtain ⟨hchildren, hnodes, -, -, hassemble, -⟩ := assembled_scanned ts
  obtain ⟨hdefined, hkey⟩ := hchildren "a" "b" hchild
  exact ⟨hchild, hdefined, hkey, hnodes.trans hkeys, hdefinitions, hassemble⟩

end Scan

end ModuleHierarchy
