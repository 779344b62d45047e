/-
ModuleHierarchy/Proofs/Hierarchy/Run.lean

What holds of a hierarchy after any run of operations.  An operation is a single change, one of
the two passes over any list of tokens, with any set of definitions, or the final step that gives
the definitions their entries.  A run starts with the empty hierarchy and mixes operations at
will; the extraction of a source is a run of three (`reachable_ofTokens`).

The step lemma is `WellFormed.apply`: every operation keeps a hierarchy well formed.  Hence every
run ends in a well-formed hierarchy (`wellFormed_run`), and `invariants_run` spells out what that
means for its keys, its child lists, its edges and its nodes, and for the next update.
-/
import ModuleHierarchy.Extraction
import ModuleHierarchy.Proofs.Hierarchy.WellFormed
import ModuleHierarchy.Proofs.Scan.Children
import ModuleHierarchy.Proofs.Text.ByteOrder

namespace ModuleHierarchy.Hierarchy

/-! ### Operations -/

/-- What can be done to a hierarchy. -/
inductive Operation where
  | define (name : String)
  | addChild (parent child : String)
  /-- The first pass over a list of tokens. -/
  | declare (ts : List Token)
  /-- The second pass over a list of tokens, for a set of definitions. -/
  | instantiate (defs : List String) (ts : List Token)
  /-- The final step for a set of definitions. -/
  | assemble (defs : List String)
deriving Repr

/-- The hierarchy after an operation. -/
def apply (h : Hierarchy) : Operation → Hierarchy
  | .define name => h.define name
  | .addChild parent child => h.addChild parent child
  | .declare ts => Scan.defineDeclared ts h
  | .instantiate defs ts => Scan.addInstantiations defs ts h
  | .assemble defs => h.assemble defs

/-- The hierarchy after a run of operations on the empty one. -/
def run (ops : List Operation) : Hierarchy :=
  ops.foldl apply ∅

/-- A hierarchy that some run ends in. -/
def Reachable (h : Hierarchy) : Prop :=
  ∃ ops, run ops = h

/-- Both passes and the final step, on a hierarchy that a run ends in, are a run. -/
theorem Reachable.ofTokens {h : Hierarchy} (hr : h.Reachable) (ts : List Token) :
    (Extraction.ofTokens ts h).hierarchy.Reachable := by
  obtain ⟨ops, rfl⟩ := hr
  refine ⟨ops ++ [.declare ts, .instantiate (Scan.definitions ts) ts,
    .assemble (Scan.definitions ts)], ?_⟩
  rw [run, List.foldl_append]
  rfl

theorem reachable_empty : Reachable ∅ :=
  ⟨[], rfl⟩

/-! ### Runs -/

theorem WellFormed.apply {h : Hierarchy} (hw : h.WellFormed) (op : Operation) :
    (h.apply op).WellFormed := by
  cases op with
  | define name => exact hw.define name
  | addChild parent child => exact hw.addChild parent child
  | declare ts => exact hw.defineAll _
  | instantiate defs ts =>
    rw [Hierarchy.apply, Scan.addInstantiations, Scan.addLinks_eq_addEdges]
    exact hw.addEdges _
  | assemble defs => exact hw.defineAll defs

theorem wellFormed_run (ops : List Operation) : (run ops).WellFormed := by
  rw [run]
  exact List.foldlRecOn ops _ wellFormed_empty fun _ hw op _ => hw.apply op

theorem Reachable.wellFormed {h : Hierarchy} (hr : h.Reachable) : h.WellFormed := by
  obtain ⟨ops, rfl⟩ := hr
  exact wellFormed_run ops

theorem pairwise_bytes_lt {names : List String} (h : Names.Increasing names) :
    names.Pairwise fun a b => Text.bytes a < Text.bytes b :=
  h.imp fun hlt => Text.bytes_lt_iff.2 hlt

/-- **What holds after every run.**  The keys are strictly increasing in byte order.  A module
lists each child once and never itself, no edge is listed twice, and the edges are counted
right.  The nodes are the keys and the children, strictly increasing.  Of the next update,
`tryDefine` reports a change if and only if the module has no entry, and `tryAddChild` if and only
if the child is another module and the pair is no edge; then the entry of that module changes and
no other one, and otherwise nothing does. -/
theorem invariants_run (ops : List Operation) :
    ((run ops).keys.Pairwise fun a b => Text.bytes a < Text.bytes b) ∧
      (∀ e ∈ (run ops).entries, e.children.Nodup ∧ e.name ∉ e.children) ∧
      (run ops).edges.Nodup ∧
      (run ops).edgeCount = (run ops).edges.length ∧
      ((run ops).nodes.Pairwise fun a b => Text.bytes a < Text.bytes b) ∧
      (∀ n, n ∈ (run ops).nodes ↔
        n ∈ (run ops).keys ∨ ∃ e ∈ (run ops).entries, n ∈ e.children) ∧
      (∀ name, UpdatesIff (name ∉ (run ops).keys) name (run ops) ((run ops).tryDefine name)) ∧
      ∀ parent child, UpdatesIff (parent ≠ child ∧ (parent, child) ∉ (run ops).edges) parent
        (run ops) ((run ops).tryAddChild parent child) := by
  have hw := wellFormed_run ops
  refine ⟨pairwise_bytes_lt hw.ordered, fun e he => ?_, hw.edges_nodup,
    edgeCount_eq_length_edges _, pairwise_bytes_lt (Names.increasing_ofList _),
    fun n => mem_nodes_iff, fun name => updatesIff_tryDefine _ name, fun parent child => ?_⟩
  · exact ⟨hw.children_nodup e he, hw.name_notMem_children e he⟩
  · exact hw.updatesIff_tryAddChild parent child

/-- A run in which a child is never defined, a module is to become its own child, and a pass
comes across an edge that is there already. -/
theorem invariants_run_repeated_link :
    let ops := [.addChild "b" "a", .define "b", .addChild "b" "b",
      .instantiate ["a", "b"] [⟨.keyword, "module", 1⟩, ⟨.ident, "b", 1⟩, ⟨.ident, "a", 1⟩,
        ⟨.paramOpen, "#(", 1⟩, ⟨.ident, "b", 2⟩, ⟨.paramOpen, "#(", 2⟩], .assemble ["é", "b"]]
    ⟨"b", ["a"]⟩ ∈ (run ops).entries ∧ (run ops).keys = ["b", "é"] ∧
      ["a"].Nodup ∧ "b" ∉ ["a"] ∧ (run ops).edgeCount = (run ops).edges.length ∧
      ((run ops).tryAddChild "b" "a").1 = false := by
  intro ops
  have he : ⟨"b", ["a"]⟩ ∈ (run ops).entries := by decide
  have hedge : ("b", "a") ∈ (run ops).edges := by decide
  obtain ⟨-, hentries, -, hcount, -, -, -, hadd⟩ := invariants_run ops
  obtain ⟨hnodup, hself⟩ := hentries _ he
  refine ⟨he, by decide, hnodup, hself, hcount, ?_⟩
  rw [Bool.eq_false_iff, ne_eq, (hadd "b" "a").reports]
  exact fun hnew => hnew.2 hedge

end ModuleHierarchy.Hierarchy
