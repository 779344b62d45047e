/-
ModuleHierarchy/Proofs/Extraction/Keys.lean

Which modules have an entry after an extraction.  The first pass defines the declared names, and
the second pass is meant to fill in children only.  But adding a child makes an entry where there
is none, and the passes do not agree on where a module starts: the first passes over the name
behind `module`, the second does not.  In `module module a` the declared name is `module`, while
the second pass enters a module `a` that was never declared.

`mem_keys_ofTokens_empty` gives the keys exactly: the definitions, and the names of the modules
in which another module is placed.  So the keys are the definitions if and only if each of the
latter is declared somewhere (`keys_eq_definitions_iff`).  Where no two tokens `module` are
neighbours (`ModuleSpaced`) that is always so, since then every module entered is declared.
-/
import ModuleHierarchy.Extraction
import ModuleHierarchy.Proofs.Scan.Children

namespace ModuleHierarchy

variable {ts : List Token} {n : String}

/-! ### Entered and declared modules -/

namespace Scan

/-- No token `module` directly follows another one. -/
def ModuleSpaced (ts : List Token) : Prop :=
  ts.IsChain fun t next => t.text = "module" → next.text ≠ "module"

instance (ts : List Token) : Decidable (ModuleSpaced ts) := by
  unfold ModuleSpaced; infer_instance

theorem ModuleSpaced.moduleRun_eq_zero (h : ModuleSpaced ts) {j : Nat}
    (hj : ts[j]?.any (·.text == "module") = true) : moduleRun ts j = 0 := by
  cases j with
  | zero => rfl
  | succ k =>
    rw [moduleRun, if_neg]
    intro hk
    obtain ⟨t, ht, htext⟩ := (Option.any_eq_true _ _).1 hk
    obtain ⟨next, hnext, hnexttext⟩ := (Option.any_eq_true _ _).1 hj
    obtain ⟨hlt, rfl⟩ := List.getElem?_eq_some_iff.1 ht
    obtain ⟨hlt', rfl⟩ := List.getElem?_eq_some_iff.1 hnext
    exact List.isChain_iff_getElem.1 h k hlt' (eq_of_beq htext) (eq_of_beq hnexttext)

/-- Where `module` never follows itself, a module that is entered is declared. -/
theorem ModuleSpaced.declaredAt?_of_opening (h : ModuleSpaced ts) {j : Nat} {name : Token}
    (hj : event? ts j = some (.opening name)) : declaredAt? ts (j + 1) = some name := by
  obtain ⟨hmodule, hname⟩ := opening_eq_some hj
  have hrun : moduleRun ts (j + 1) = 1 := by
    rw [moduleRun, if_pos hmodule, h.moduleRun_eq_zero hmodule]
  rw [declaredAt?_of_odd (by omega), hname]

theorem mem_definitions_iff :
    n ∈ definitions ts ↔ ∃ i name, declaredAt? ts i = some name ∧ name.text = n := by
  rw [definitions, Names.mem_ofList, List.mem_map]
  constructor
  · rintro ⟨name, hname, rfl⟩
    obtain ⟨i, hi⟩ := mem_declarations_iff.1 hname
    exact ⟨i, name, hi, rfl⟩
  · rintro ⟨i, name, hi, rfl⟩
    exact ⟨name, mem_declarations_iff.2 ⟨i, hi⟩, rfl⟩

end Scan

/-! ### The keys and the children -/

namespace Extraction

@[simp] theorem definitions_ofTokens (ts : List Token) (h : Hierarchy) :
    (ofTokens ts h).definitions = Scan.definitions ts := rfl

theorem ordered_ofTokens {h : Hierarchy} (hs : h.Ordered) :
    (ofTokens ts h).hierarchy.Ordered := by
  show (Hierarchy.assemble _ (Scan.addInstantiations _ ts (Scan.defineDeclared ts h))).Ordered
  rw [Scan.addInstantiations, Scan.addLinks_eq_addEdges]
  exact ((hs.defineAll _).addEdges _).defineAll _

theorem contains_ofTokens_empty :
    (ofTokens ts ∅).hierarchy.contains n = true ↔ n ∈ Scan.definitions ts ∨
      Hierarchy.gained n [] (Scan.placedIn (Scan.definitions ts) ts n) ≠ [] := by
  have hdeclared : (Scan.defineDeclared ts ∅).contains n = true ↔ n ∈ Scan.definitions ts := by
    rw [Scan.defineDeclared, Hierarchy.contains_defineAll, Scan.definitions, Names.mem_ofList]
    exact or_iff_right Bool.false_ne_true
  have hnone : (Scan.defineDeclared ts ∅).childrenOf n = [] :=
    Hierarchy.childrenOf_defineAll ∅ _ n
  show (Hierarchy.assemble _ (Scan.addInstantiations _ ts (Scan.defineDeclared ts ∅))).contains n
    = true ↔ _
  rw [Hierarchy.assemble, Hierarchy.contains_defineAll, Scan.contains_addInstantiations, hdeclared,
    hnone]
  exact or_iff_left_of_imp Or.inl

theorem childrenOf_ofTokens_empty (ts : List Token) (n : String) :
    (ofTokens ts ∅).hierarchy.childrenOf n =
      Hierarchy.gained n [] (Scan.placedIn (Scan.definitions ts) ts n) := by
  have hnone : (Scan.defineDeclared ts ∅).childrenOf n = [] :=
    Hierarchy.childrenOf_defineAll ∅ _ n
  show (Hierarchy.assemble _ (Scan.addInstantiations _ ts (Scan.defineDeclared ts ∅))).childrenOf n
    = _
  rw [Hierarchy.assemble, Hierarchy.childrenOf_defineAll, Scan.childrenOf_addInstantiations, hnone,
    List.nil_append]

theorem mem_keys_ofTokens_empty :
    n ∈ (ofTokens ts ∅).hierarchy.keys ↔
      n ∈ Scan.definitions ts ∨
        ∃ i parent child, Scan.owner? ts i = some parent ∧
          Scan.placedAt? (Scan.definitions ts) ts i = some child ∧
          child.text ≠ parent.text ∧ parent.text = n := by
  rw [← Hierarchy.contains_iff_mem_keys, contains_ofTokens_empty, Hierarchy.gained_ne_nil_iff]
  refine or_congr_right ?_
  constructor
  · rintro ⟨c, hc, hne, -⟩
    obtain ⟨i, parent, child, howner, hplaced, rfl, rfl⟩ := Scan.mem_placedIn_iff.1 hc
    exact ⟨i, parent, child, howner, hplaced, hne, rfl⟩
  · rintro ⟨i, parent, child, howner, hplaced, hne, rfl⟩
    refine ⟨child.text, ?_, hne, List.not_mem_nil⟩
    exact Scan.mem_placedIn_iff.2 ⟨i, parent, child, howner, hplaced, rfl, rfl⟩

theorem keys_eq_definitions_iff (ts : List Token) :
    (ofTokens ts ∅).hierarchy.keys = Scan.definitions ts ↔
      ∀ i parent child, Scan.owner? ts i = some parent →
        Scan.placedAt? (Scan.definitions ts) ts i = some child → child.text ≠ parent.text →
        ∃ j name, Scan.declaredAt? ts j = some name ∧ name.text = parent.text := by
  constructor
  · intro hkeys i parent child howner hplaced hne
    have hmem : parent.text ∈ (ofTokens ts ∅).hierarchy.keys :=
      mem_keys_ofTokens_empty.2 (.inr ⟨i, parent, child, howner, hplaced, hne, rfl⟩)
    rw [hkeys] at hmem
    exact Scan.mem_definitions_iff.1 hmem
  · intro hdeclared
    refine Names.eq_of_increasing (ordered_ofTokens Hierarchy.ordered_empty)
      (Names.increasing_ofList _) fun n => ?_
    rw [mem_keys_ofTokens_empty]
    refine or_iff_left_of_imp ?_
    rintro ⟨i, parent, child, howner, hplaced, hne, rfl⟩
    exact Scan.mem_definitions_iff.2 (hdeclared i parent child howner hplaced hne)

end Extraction

/-! ### Sources -/

namespace Source

/-- **When the keys are the definitions.**  The keys of the hierarchy of a source are its
definitions if and only if every module in which another module is placed has a declared name.
This is so in particular where no `module` directly follows another one. -/
theorem keys_extract_eq_definitions_iff (s : Source) :
    (s.extract.hierarchy.keys = s.extract.definitions ↔
      ∀ i parent child, Scan.owner? s.tokens i = some parent →
        Scan.placedAt? s.extract.definitions s.tokens i = some child →
        child.text ≠ parent.text →
        ∃ j name, Scan.declaredAt? s.tokens j = some name ∧ name.text = parent.text) ∧
    (Scan.ModuleSpaced s.tokens → s.extract.hierarchy.keys = s.extract.definitions) := by
  have hiff := Extraction.keys_eq_definitions_iff s.tokens
  rw [extract, Extraction.definitions_ofTokens]
  refine ⟨hiff, fun hspaced => hiff.2 ?_⟩
  intro i parent child howner _ _
  obtain ⟨j, hj⟩ := Scan.exists_opening_of_owner? howner
  exact ⟨j + 1, parent, hspaced.declaredAt?_of_opening hj, rfl⟩

theorem keys_extract_two_modules :
    Scan.ModuleSpaced (tokens ⟨"top.sv", "module a; b u (); endmodule module b;"⟩) ∧
      (extract ⟨"top.sv", "module a; b u (); endmodule module b;"⟩).hierarchy.keys =
        (extract ⟨"top.sv", "module a; b u (); endmodule module b;"⟩).definitions := by
  have hspaced : Scan.ModuleSpaced
      (tokens ⟨"top.sv", "module a; b u (); endmodule module b;"⟩) := by decide +kernel
  exact ⟨hspaced, (keys_extract_eq_definitions_iff _).2 hspaced⟩

/-- Behind `module module` a module is entered that is not declared. -/
theorem keys_extract_ne_definitions :
    ¬ ∀ s : Source, s.extract.hierarchy.keys = s.extract.definitions := by
  intro h
  have hkeys := h ⟨"top.sv",
    "module module foo;\n  leaf u_leaf ();\nendmodule\nmodule leaf;\nendmodule\n"⟩
  exact absurd hkeys (by decide +kernel)

end Source

end ModuleHierarchy
