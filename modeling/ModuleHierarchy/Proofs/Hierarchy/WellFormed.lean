/-
ModuleHierarchy/Proofs/Hierarchy/WellFormed.lean

Well-formed hierarchies: the entries stand in order, and a module lists each of its children once
and never itself.  Every change of a hierarchy puts at most one entry into it (`setChildren`), so
that one lemma about this step (`WellFormed.setChildren`) carries all of them.

In a well-formed hierarchy the edges and the child lists say the same (`mem_edges_iff`), no edge
is listed twice (`edges_nodup`), and an update says truly whether it changes something
(`updatesIff_tryDefine`, `updatesIff_tryAddChild`).  Where every child has an entry, the nodes and
the edges determine the hierarchy (`Ordered.eq_of_nodes_of_edges`).
-/
import Mathlib.Data.List.Nodup
import ModuleHierarchy.Proofs.Hierarchy.Growth

namespace ModuleHierarchy.Hierarchy

variable {h : Hierarchy} {name parent child n : String} {l : List String}

/-- The entries stand in order, and each lists its children once and never its own module. -/
structure WellFormed (h : Hierarchy) : Prop where
  ordered : h.Ordered
  children_nodup : ∀ e ∈ h.entries, e.children.Nodup
  name_notMem_children : ∀ e ∈ h.entries, e.name ∉ e.children

/-! ### Changes -/

theorem wellFormed_empty : WellFormed ∅ :=
  ⟨ordered_empty, fun _ he => absurd he List.not_mem_nil, fun _ he => absurd he List.not_mem_nil⟩

theorem eq_or_mem_of_mem_putEntry {e x : Entry} {entries : List Entry}
    (hx : x ∈ putEntry e entries) : x = e ∨ x ∈ entries := by
  induction entries with
  | nil => exact .inl (List.mem_singleton.1 hx)
  | cons y ys ih =>
    rw [putEntry] at hx
    split at hx
    · exact List.mem_cons.1 hx
    · split at hx
      · rcases List.mem_cons.1 hx with rfl | hx
        · exact .inl rfl
        · exact .inr (List.mem_cons_of_mem _ hx)
      · rcases List.mem_cons.1 hx with rfl | hx
        · exact .inr List.mem_cons_self
        · exact (ih hx).imp_right (List.mem_cons_of_mem _)

theorem WellFormed.setChildren (hw : h.WellFormed) (hl : l.Nodup) (hname : name ∉ l) :
    (h.setChildren name l).WellFormed := by
  refine ⟨hw.ordered.setChildren name l, fun e he => ?_, fun e he => ?_⟩
  · rcases eq_or_mem_of_mem_putEntry he with rfl | he
    · exact hl
    · exact hw.children_nodup e he
  · rcases eq_or_mem_of_mem_putEntry he with rfl | he
    · exact hname
    · exact hw.name_notMem_children e he

/-- The children of a module are those of an entry of its name, or there are none. -/
theorem childrenOf_eq_nil_or (h : Hierarchy) (n : String) :
    h.childrenOf n = [] ∨ ∃ e ∈ h.entries, e.name = n ∧ h.childrenOf n = e.children := by
  rw [childrenOf, children?]
  cases he : h.entries.find? (·.name == n) with
  | none => exact .inl rfl
  | some e =>
    have hname := List.find?_some he
    exact .inr ⟨e, List.mem_of_find?_eq_some he, eq_of_beq hname, rfl⟩

theorem WellFormed.nodup_childrenOf (hw : h.WellFormed) (n : String) :
    (h.childrenOf n).Nodup := by
  rcases h.childrenOf_eq_nil_or n with hnil | ⟨e, he, -, hchildren⟩
  · rw [hnil]
    exact List.nodup_nil
  · rw [hchildren]
    exact hw.children_nodup e he

theorem WellFormed.notMem_childrenOf (hw : h.WellFormed) (n : String) : n ∉ h.childrenOf n := by
  rcases h.childrenOf_eq_nil_or n with hnil | ⟨e, he, rfl, hchildren⟩
  · rw [hnil]
    exact List.not_mem_nil
  · rw [hchildren]
    exact hw.name_notMem_children e he

theorem WellFormed.define (hw : h.WellFormed) (name : String) : (h.define name).WellFormed := by
  rw [Hierarchy.define, tryDefine]
  split
  · exact hw
  · exact hw.setChildren List.nodup_nil List.not_mem_nil

theorem WellFormed.addChild (hw : h.WellFormed) (parent child : String) :
    (h.addChild parent child).WellFormed := by
  rw [Hierarchy.addChild, tryAddChild]
  split
  · exact hw
  · next hc =>
    obtain ⟨hne, hnew⟩ := not_or.1 hc
    refine hw.setChildren ?_ ?_
    · rw [← List.concat_eq_append]
      exact (hw.nodup_childrenOf parent).concat hnew
    · rw [List.mem_append, List.mem_singleton, not_or]
      exact ⟨hw.notMem_childrenOf parent, hne⟩

theorem WellFormed.defineAll (hw : h.WellFormed) (names : List String) :
    (h.defineAll names).WellFormed := by
  rw [Hierarchy.defineAll]
  exact List.foldlRecOn names _ hw fun _ hw name _ => hw.define name

theorem WellFormed.addEdges (hw : h.WellFormed) (es : List (String × String)) :
    (h.addEdges es).WellFormed := by
  rw [Hierarchy.addEdges]
  exact List.foldlRecOn es _ hw fun _ hw e _ => hw.addChild e.1 e.2

/-! ### Edges and nodes -/

theorem edgeCount_eq_length_edges (h : Hierarchy) : h.edgeCount = h.edges.length := by
  simp [edgeCount, edges, List.length_flatMap]

theorem WellFormed.mem_edges_iff (hw : h.WellFormed) :
    (parent, child) ∈ h.edges ↔ child ∈ h.childrenOf parent := by
  rw [edges, List.mem_flatMap]
  constructor
  · rintro ⟨e, he, hc⟩
    obtain ⟨c, hmem, heq⟩ := List.mem_map.1 hc
    obtain ⟨rfl, rfl⟩ := Prod.mk.inj heq
    rw [childrenOf, hw.ordered.mem_entries_iff.1 he]
    exact hmem
  · intro hc
    rcases h.childrenOf_eq_nil_or parent with hnil | ⟨e, he, rfl, hchildren⟩
    · rw [hnil] at hc
      exact absurd hc List.not_mem_nil
    · rw [hchildren] at hc
      exact ⟨e, he, List.mem_map.2 ⟨child, hc, rfl⟩⟩

theorem Ordered.nodup_keys (hs : h.Ordered) : h.keys.Nodup :=
  Names.Increasing.nodup hs

theorem WellFormed.edges_nodup (hw : h.WellFormed) : h.edges.Nodup := by
  rw [edges, List.nodup_flatMap]
  refine ⟨fun e he => ?_, ?_⟩
  · exact (hw.children_nodup e he).map fun _ _ heq => (Prod.mk.inj heq).2
  · -- pairs of two entries differ in the name
    refine (List.pairwise_map.1 hw.ordered.nodup_keys).imp fun hne => List.disjoint_left.2 ?_
    rintro ⟨p, c⟩ hp hp'
    obtain ⟨_, -, heq⟩ := List.mem_map.1 hp
    obtain ⟨_, -, heq'⟩ := List.mem_map.1 hp'
    exact hne (Prod.mk.inj (heq.trans heq'.symm)).1

theorem mem_nodes_iff : n ∈ h.nodes ↔ n ∈ h.keys ∨ ∃ e ∈ h.entries, n ∈ e.children := by
  rw [nodes, Names.mem_ofList, List.mem_flatMap, keys, List.mem_map]
  constructor
  · rintro ⟨e, he, hn⟩
    rcases List.mem_cons.1 hn with rfl | hn
    · exact .inl ⟨e, he, rfl⟩
    · exact .inr ⟨e, he, hn⟩
  · rintro (⟨e, he, rfl⟩ | ⟨e, he, hn⟩)
    · exact ⟨e, he, List.mem_cons_self⟩
    · exact ⟨e, he, List.mem_cons_of_mem _ hn⟩

/-- The edges offer to a module its children, in order. -/
theorem Ordered.offered_edges (hs : h.Ordered) (n : String) :
    offered n h.edges = h.childrenOf n := by
  by_cases hn : n ∈ h.keys
  · obtain ⟨e, he, rfl⟩ := List.mem_map.1 hn
    rw [childrenOf, hs.mem_entries_iff.1 he]
    exact offered_flatMap_of_mem hs.nodup_keys he
  · have hnone : h.children? n = none := by
      rw [children?_eq_ite, if_neg fun hc => hn (contains_iff_mem_keys.1 hc)]
    rw [childrenOf, hnone]
    exact offered_flatMap_of_notMem hn

/-- Every child has an entry of its own. -/
def ChildrenHaveEntries (h : Hierarchy) : Prop :=
  ∀ e ∈ h.entries, ∀ c ∈ e.children, c ∈ h.keys

theorem Ordered.keys_eq_nodes (hs : h.Ordered) (hc : h.ChildrenHaveEntries) :
    h.keys = h.nodes := by
  refine Names.eq_of_increasing hs (Names.increasing_ofList _) fun n => ?_
  show n ∈ h.keys ↔ n ∈ h.nodes
  rw [mem_nodes_iff]
  refine (or_iff_left_of_imp ?_).symm
  rintro ⟨e, he, hn⟩
  exact hc e he n hn

/-- Where every child has an entry, the nodes and the edges tell all. -/
theorem Ordered.eq_of_nodes_of_edges {g : Hierarchy} (hg : g.Ordered) (hh : h.Ordered)
    (hgc : g.ChildrenHaveEntries) (hhc : h.ChildrenHaveEntries) (hnodes : g.nodes = h.nodes)
    (hedges : g.edges = h.edges) : g = h := by
  refine hg.ext hh fun n => ?_
  have hchildren : g.childrenOf n = h.childrenOf n := by
    rw [← hg.offered_edges, ← hh.offered_edges, hedges]
  have hcontains : g.contains n = h.contains n := by
    rw [Bool.eq_iff_iff, contains_iff_mem_keys, contains_iff_mem_keys, hg.keys_eq_nodes hgc,
      hh.keys_eq_nodes hhc, hnodes]
  rw [children?_eq_ite, children?_eq_ite, hchildren, hcontains]

/-! ### What updates report -/

/-- An update of the module `name` reports truly whether it changes something: it does if and only
if `p` holds, and then it changes the entry of `name` and no other one. -/
structure UpdatesIff (p : Prop) (name : String) (h : Hierarchy) (result : Bool × Hierarchy) :
    Prop where
  reports : result.1 = true ↔ p
  unchanged : result.1 = false → result.2 = h
  changed : result.1 = true → result.2.children? name ≠ h.children? name
  elsewhere : ∀ n, n ≠ name → result.2.children? n = h.children? n

theorem updatesIff_refused {p : Prop} (hp : ¬ p) (name : String) (h : Hierarchy) :
    UpdatesIff p name h (false, h) :=
  ⟨iff_of_false Bool.false_ne_true hp, fun _ => rfl, fun ht => absurd ht Bool.false_ne_true,
    fun _ _ => rfl⟩

theorem updatesIff_setChildren {p : Prop} (hp : p) (hnew : h.children? name ≠ some l) :
    UpdatesIff p name h (true, h.setChildren name l) := by
  refine ⟨iff_of_true rfl hp, fun hf => absurd hf.symm Bool.false_ne_true, fun _ => ?_, ?_⟩
  · rw [children?_setChildren, if_pos rfl]
    exact hnew.symm
  · intro n hn
    rw [children?_setChildren, if_neg hn]

theorem updatesIff_tryDefine (h : Hierarchy) (name : String) :
    UpdatesIff (name ∉ h.keys) name h (h.tryDefine name) := by
  rw [tryDefine]
  split
  · next hc => exact updatesIff_refused (not_not_intro (contains_iff_mem_keys.1 hc)) name h
  · next hc =>
    refine updatesIff_setChildren (fun hk => hc (contains_iff_mem_keys.2 hk)) fun hsome => hc ?_
    rw [contains_eq_isSome, hsome]
    rfl

theorem WellFormed.updatesIff_tryAddChild (hw : h.WellFormed) (parent child : String) :
    UpdatesIff (parent ≠ child ∧ (parent, child) ∉ h.edges) parent h
      (h.tryAddChild parent child) := by
  rw [tryAddChild, hw.mem_edges_iff, ← not_or]
  split
  · next hc => exact updatesIff_refused (not_not_intro hc) parent h
  · next hc =>
    refine updatesIff_setChildren hc fun hsome => hc (.inr ?_)
    have hchildren : h.childrenOf parent = h.childrenOf parent ++ [child] := by
      conv => lhs; rw [childrenOf, hsome]
      rfl
    rw [hchildren]
    exact List.mem_append_right _ List.mem_cons_self

end ModuleHierarchy.Hierarchy
