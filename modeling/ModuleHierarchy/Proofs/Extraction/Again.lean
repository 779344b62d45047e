/-
ModuleHierarchy/Proofs/Extraction/Again.lean

An extraction into its own result.  A hierarchy is settled for a list of tokens if nothing that both
passes would put into it is missing: every declared module has an entry, and every module that is
placed is a child of the module it is placed in, unless it is that module itself.  Each step of a
run leaves a settled hierarchy as it is, and each run ends in one, whatever it starts with, so that
the settled hierarchies are those that a run does not change:

    (ofTokens ts h).hierarchy = h ↔ Settled ts h                        (`ofTokens_eq_self_iff`).

That the tokens hold modules which are entered but never declared does no harm, since the links of
the second pass are the same in both runs.
-/
import ModuleHierarchy.Extraction
import ModuleHierarchy.Proofs.Scan.Children

namespace ModuleHierarchy

variable {ts : List Token} {h : Hierarchy}

/-- No link between a pair that is there already is new. -/
theorem Scan.newLinks_eq_nil {ls : List Scan.Link} (hls : ∀ l ∈ ls, h.Absorbs l.names) :
    Scan.newLinks h ls = [] := by
  induction ls with
  | nil => rfl
  | cons l ls ih =>
    obtain ⟨hl, hls⟩ := List.forall_mem_cons.1 hls
    have hrefused : h.tryAddChild l.parent.text l.child.text = (false, h) := hl.tryAddChild
    rw [Scan.newLinks, hrefused]
    exact ih hls

namespace Extraction

/-- Nothing that both passes put into a hierarchy is missing from this one. -/
structure Settled (ts : List Token) (h : Hierarchy) : Prop where
  declared : ∀ n ∈ Scan.definitions ts, h.contains n = true
  linked : ∀ l ∈ Scan.links (Scan.definitions ts) ts, h.Absorbs l.names

/-! ### Each step leaves a settled hierarchy as it is -/

theorem Settled.defineDeclared (hs : Settled ts h) : Scan.defineDeclared ts h = h := by
  refine Hierarchy.defineAll_eq_self fun n hn => hs.declared n ?_
  rw [Scan.definitions, Names.mem_ofList]
  exact hn

theorem Settled.addInstantiations (hs : Settled ts h) :
    Scan.addInstantiations (Scan.definitions ts) ts h = h := by
  rw [Scan.addInstantiations, Scan.addLinks_eq_addEdges]
  refine Hierarchy.addEdges_eq_self fun e he => ?_
  obtain ⟨l, hl, rfl⟩ := List.mem_map.1 he
  exact hs.linked l hl

theorem Settled.assemble (hs : Settled ts h) : h.assemble (Scan.definitions ts) = h :=
  Hierarchy.defineAll_eq_self hs.declared

theorem Settled.hierarchy_ofTokens (hs : Settled ts h) : (ofTokens ts h).hierarchy = h := by
  show (Scan.addInstantiations _ ts (Scan.defineDeclared ts h)).assemble _ = h
  rw [hs.defineDeclared, hs.addInstantiations, hs.assemble]

theorem Settled.newLinks_ofTokens (hs : Settled ts h) : (ofTokens ts h).newLinks = [] := by
  show Scan.newLinks (Scan.defineDeclared ts h) _ = []
  rw [hs.defineDeclared]
  exact Scan.newLinks_eq_nil hs.linked

/-! ### Each run ends in a settled hierarchy -/

theorem settled_ofTokens (ts : List Token) (h : Hierarchy) :
    Settled ts (ofTokens ts h).hierarchy := by
  refine ⟨fun n hn => ?_, fun l hl => ?_⟩
  · show (Hierarchy.defineAll _ _).contains n = true
    rw [Hierarchy.contains_defineAll]
    exact .inr hn
  · show _ ∨ _ ∈ (Hierarchy.defineAll _ _).childrenOf _
    rw [Hierarchy.childrenOf_defineAll, Scan.addInstantiations, Scan.addLinks_eq_addEdges]
    exact Hierarchy.absorbs_addEdges _ (List.mem_map_of_mem (f := Scan.Link.names) hl)

/-- What a run does not change is what it may end in. -/
theorem ofTokens_eq_self_iff : (ofTokens ts h).hierarchy = h ↔ Settled ts h :=
  ⟨fun heq => heq ▸ settled_ofTokens ts h, Settled.hierarchy_ofTokens⟩

/-- **A second run changes nothing.**  Whatever hierarchy a run starts with, a run over the same
tokens into its result finds the same definitions and reports the same diagnostics in the same
order.  Each of its steps, the first pass, the second pass and the assembly, leaves the result as
it is, and no link is new. -/
theorem ofTokens_again (ts : List Token) (h : Hierarchy) :
    let x := ofTokens ts h
    let y := ofTokens ts x.hierarchy
    y.definitions = x.definitions ∧
      (∀ source, y.diagnostics source = x.diagnostics source) ∧
      y.hierarchy = x.hierarchy ∧
      y.newLinks = [] ∧
      Scan.defineDeclared ts x.hierarchy = x.hierarchy ∧
      Scan.addInstantiations y.definitions ts x.hierarchy = x.hierarchy ∧
      x.hierarchy.assemble y.definitions = x.hierarchy := by
  intro x y
  have hs : Settled ts x.hierarchy := settled_ofTokens ts h
  exact ⟨rfl, fun _ => rfl, ofTokens_eq_self_iff.2 hs, hs.newLinks_ofTokens, hs.defineDeclared,
    hs.addInstantiations, hs.assemble⟩

-- behind `module module` a module `a` is entered that is not declared, and gets a child
example :
    let ts := Token.ofText "module module a; b u (); endmodule module b; module b;".toList
    let x := ofTokens ts (.ofEntries [⟨"b", ["module"]⟩])
    x.hierarchy = .ofEntries [⟨"a", ["b"]⟩, ⟨"b", ["module"]⟩, ⟨"module", []⟩] ∧
      x.warnings.length = 2 ∧ (ofTokens ts x.hierarchy).warnings = x.warnings := by
  decide +kernel

end Extraction

end ModuleHierarchy
