/-
ModuleHierarchy/Proofs/Extraction/Order.lean

The order of the modules in a source does not matter.  For modules with different names, written
one after the other, the extraction warns of nothing (`warnings_blocks`), and the children of a
module are the instantiations in its own block, each once and in order, without the module itself
(`children?_blocks`).  They depend on the other modules by their names only, and not on the order
of these, since definitions are kept as a set.  So two orders yield hierarchies with the same
view, and hence the same hierarchy (`extraction_blocks_perm`).
-/
import ModuleHierarchy.Proofs.Scan.Block
import ModuleHierarchy.Proofs.Scan.Declared

namespace ModuleHierarchy

open Scan

variable {b : Block} {bs bs' : List Block} {n : String}

theorem Names.ofList_perm {names names' : List String} (h : names.Perm names') :
    ofList names = ofList names' :=
  eq_of_increasing (increasing_ofList _) (increasing_ofList _) fun x => by
    rw [mem_ofList, mem_ofList, h.mem_iff]

namespace Extraction

/-! ### Warnings -/

theorem warnings_blocks (hnames : (blockNames bs).Nodup) (h : Hierarchy) :
    (ofTokens (blockTokens bs) h).warnings = [] := by
  have hredefined : redefinitions (blockTokens bs) = [] := by
    rw [redefinitions_eq_nil_iff, declarations_blocks, List.map_map]
    exact hnames
  have hunclosed : unclosedModules (Scan.definitions (blockTokens bs)) (blockTokens bs) = [] := by
    rw [unclosedModules, findings_blocks (module_notMem_definitions_blocks bs),
      List.filterMap_eq_nil_iff]
    intro f hf
    obtain ⟨b, -, hb⟩ := List.mem_flatMap.1 hf
    obtain ⟨t, -, rfl⟩ := List.mem_map.1 hb
    rfl
  show redefinitions _ ++ unclosedModules _ _ = []
  rw [hredefined, hunclosed, List.append_nil]

/-! ### The hierarchy -/

theorem contains_blocks :
    (ofTokens (blockTokens bs) ∅).hierarchy.contains n = true ↔ n ∈ blockNames bs := by
  have hdefs : n ∈ Scan.definitions (blockTokens bs) ↔ n ∈ blockNames bs := by
    rw [definitions_blocks, Names.mem_ofList]
  rw [contains_ofTokens_empty, hdefs]
  refine or_iff_left_of_imp fun hgained => ?_
  by_contra hn
  rw [placedIn_blocks_of_notMem (module_notMem_definitions_blocks bs) hn] at hgained
  exact hgained rfl

theorem keys_blocks (bs : List Block) :
    (ofTokens (blockTokens bs) ∅).hierarchy.keys = Names.ofList (blockNames bs) :=
  Names.eq_of_increasing (ordered_ofTokens Hierarchy.ordered_empty) (Names.increasing_ofList _)
    fun n => by rw [← Hierarchy.contains_iff_mem_keys, contains_blocks, Names.mem_ofList]

/-- The children of a module are what its block places, without the module itself. -/
theorem children?_blocks (hnames : (blockNames bs).Nodup) (hb : b ∈ bs) :
    (ofTokens (blockTokens bs) ∅).hierarchy.children? b.name.text =
      some (((b.placed (Names.ofList (blockNames bs))).filter (· ≠ b.name.text)).eraseDups) := by
  rw [Hierarchy.children?_eq_ite, if_pos (contains_blocks.2 (List.mem_map_of_mem hb)),
    childrenOf_ofTokens_empty, placedIn_blocks (module_notMem_definitions_blocks bs) hnames hb,
    Hierarchy.gained_nil, definitions_blocks]

theorem hierarchy_blocks_perm (hnames : (blockNames bs).Nodup) (hperm : bs.Perm bs') :
    (ofTokens (blockTokens bs) ∅).hierarchy = (ofTokens (blockTokens bs') ∅).hierarchy := by
  have hnames' : (blockNames bs').Nodup := (hperm.map _).nodup_iff.1 hnames
  have hset : Names.ofList (blockNames bs) = Names.ofList (blockNames bs') :=
    Names.ofList_perm (hperm.map _)
  refine Hierarchy.Ordered.ext (ordered_ofTokens Hierarchy.ordered_empty)
    (ordered_ofTokens Hierarchy.ordered_empty) fun n => ?_
  by_cases hn : n ∈ blockNames bs
  · obtain ⟨b, hb, rfl⟩ := List.mem_map.1 hn
    rw [children?_blocks hnames hb, children?_blocks hnames' (hperm.mem_iff.1 hb), hset]
  · have hn' : n ∉ blockNames bs' := fun h => hn ((hperm.map _).mem_iff.2 h)
    rw [Hierarchy.children?_eq_ite, Hierarchy.children?_eq_ite,
      if_neg fun h => hn (contains_blocks.1 h), if_neg fun h => hn' (contains_blocks.1 h)]

/-- **The order of modules does not matter.**  Modules with different names, from `module` to
`endmodule` one after the other, yield the same hierarchy in every order, and no diagnostic.  The
keys are the names.  The children of a module are the instantiations inside it, each where it
stands first, without the module itself; which names count is all that the other modules say. -/
theorem extraction_blocks_perm (hnames : (blockNames bs).Nodup) (hperm : bs.Perm bs')
    (source : Source) :
    (ofTokens (blockTokens bs) ∅).hierarchy = (ofTokens (blockTokens bs') ∅).hierarchy ∧
      (ofTokens (blockTokens bs') ∅).diagnostics source = [] ∧
      (ofTokens (blockTokens bs') ∅).hierarchy.keys = Names.ofList (blockNames bs) ∧
      ∀ b ∈ bs, (ofTokens (blockTokens bs') ∅).hierarchy.children? b.name.text =
        some (((b.placed (Names.ofList (blockNames bs))).filter (· ≠ b.name.text)).eraseDups) := by
  have hnames' : (blockNames bs').Nodup := (hperm.map _).nodup_iff.1 hnames
  have hsame := hierarchy_blocks_perm hnames hperm
  refine ⟨hsame, ?_, ?_, fun b hb => ?_⟩
  · rw [diagnostics, warnings_blocks hnames', List.map_nil]
  · rw [← hsame, keys_blocks]
  · rw [← hsame, children?_blocks hnames hb]

/-- A module that places one that is defined behind it and itself, and names a module again right
in front of its `endmodule`. -/
theorem extraction_blocks_perm_forward_reference :
    let top : Block :=
      { opening := ⟨.keyword, "module", 1⟩, name := ⟨.ident, "top", 1⟩,
        body := [⟨.ident, "leaf", 2⟩, ⟨.ident, "u_leaf", 2⟩, ⟨.symbol, "(", 2⟩,
          ⟨.ident, "top", 3⟩, ⟨.paramOpen, "#(", 3⟩, ⟨.ident, "leaf", 3⟩],
        closing := ⟨.keyword, "endmodule", 4⟩, opening_text := rfl, name_kind := rfl,
        name_ordinary := by decide, body_ordinary := by decide, closing_text := rfl }
    let leaf : Block :=
      { opening := ⟨.keyword, "module", 5⟩, name := ⟨.ident, "leaf", 5⟩, body := [],
        closing := ⟨.keyword, "endmodule", 6⟩, opening_text := rfl, name_kind := rfl,
        name_ordinary := by decide, body_ordinary := by decide, closing_text := rfl }
    (blockNames [top, leaf]).Nodup ∧ [top, leaf].Perm [leaf, top] ∧
      (ofTokens (blockTokens [top, leaf]) ∅).hierarchy =
        (ofTokens (blockTokens [leaf, top]) ∅).hierarchy ∧
      (ofTokens (blockTokens [leaf, top]) ∅).diagnostics ⟨"top.sv", ""⟩ = [] ∧
      (ofTokens (blockTokens [leaf, top]) ∅).hierarchy.keys = ["leaf", "top"] ∧
      (ofTokens (blockTokens [leaf, top]) ∅).hierarchy.children? "top" = some ["leaf"] := by
  intro top leaf
  have hnames : (blockNames [top, leaf]).Nodup := by decide
  have hperm : [top, leaf].Perm [leaf, top] := .swap leaf top []
  have hplaced : ((top.placed (Names.ofList (blockNames [top, leaf]))).filter
      (· ≠ top.name.text)).eraseDups = ["leaf"] := by decide
  obtain ⟨hsame, hdiagnostics, hkeys, hchildren⟩ :=
    extraction_blocks_perm hnames hperm ⟨"top.sv", ""⟩
  refine ⟨hnames, hperm, hsame, hdiagnostics, hkeys.trans (by decide), ?_⟩
  rw [← hplaced]
  exact hchildren top List.mem_cons_self

end Extraction

end ModuleHierarchy
