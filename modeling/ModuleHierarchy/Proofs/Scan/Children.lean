/-
ModuleHierarchy/Proofs/Scan/Children.lean

What the second pass does to a hierarchy.  `placedIn` lists the modules that are placed in the
modules of one name, read off the positions of the tokens, and `offered_links` says that these
are what the pass offers to that name.  So `children?_addInstantiations` gives the children of
every module after the pass in full: those it had before, and behind them what it gains from
`placedIn`.
-/
import Mathlib.Data.List.Basic
import ModuleHierarchy.Proofs.Hierarchy.Growth
import ModuleHierarchy.Proofs.Scan.Position

namespace ModuleHierarchy.Scan

variable {defs : List String} {ts : List Token} {p c : String}

/-- The names of the modules placed in the modules of the name `p`, in order. -/
def placedIn (defs : List String) (ts : List Token) (p : String) : List String :=
  (List.range ts.length).filterMap fun i =>
    if (owner? ts i).map Token.text = some p then (placedAt? defs ts i).map Token.text else none

/-- The names of the parent and of the child of an instantiation. -/
def Link.names (l : Link) : String × String :=
  (l.parent.text, l.child.text)

theorem addLinks_eq_addEdges (h : Hierarchy) (ls : List Link) :
    addLinks h ls = h.addEdges (ls.map Link.names) := by
  rw [addLinks, Hierarchy.addEdges, List.foldl_map]
  rfl

theorem mem_placedIn_iff :
    c ∈ placedIn defs ts p ↔ ∃ i parent child, owner? ts i = some parent ∧
      placedAt? defs ts i = some child ∧ parent.text = p ∧ child.text = c := by
  rw [placedIn, List.mem_filterMap]
  constructor
  · rintro ⟨i, -, hi⟩
    split at hi
    · next hp =>
      obtain ⟨parent, howner, htext⟩ := Option.map_eq_some_iff.1 hp
      obtain ⟨child, hplaced, hc⟩ := Option.map_eq_some_iff.1 hi
      exact ⟨i, parent, child, howner, hplaced, htext, hc⟩
    · cases hi
  · rintro ⟨i, parent, child, howner, hplaced, rfl, rfl⟩
    have hi : i < ts.length := by
      obtain ⟨hget, -⟩ := Option.filter_eq_some_iff.1 hplaced
      exact (List.getElem?_eq_some_iff.1 hget).1
    refine ⟨i, List.mem_range.2 hi, ?_⟩
    rw [howner, hplaced, Option.map_some, if_pos rfl, Option.map_some]

/-- What the pass offers to a name is what is placed in its modules. -/
theorem offered_links (defs : List String) (ts : List Token) (p : String) :
    Hierarchy.offered p ((links defs ts).map Link.names) = placedIn defs ts p := by
  rw [Hierarchy.offered, links, findings_eq_filterMap, List.filterMap_map,
    List.filterMap_filterMap, List.filterMap_filterMap, placedIn]
  refine List.filterMap_congr fun i _ => ?_
  cases hplaced : placedAt? defs ts i with
  | none =>
    -- at most an unclosed module is found here, which is no instantiation
    rw [findingAt?, hplaced]
    cases event? ts i with
    | none => simp
    | some e => cases e <;> cases owner? ts i <;> simp [Finding.link?]
  | some child =>
    rw [findingAt?, hplaced, event?_of_placedAt? hplaced]
    cases owner? ts i with
    | none => simp
    | some parent => by_cases hp : parent.text = p <;> simp [Finding.link?, Link.names, hp]

theorem childrenOf_addInstantiations (defs : List String) (ts : List Token) (h : Hierarchy)
    (p : String) :
    (addInstantiations defs ts h).childrenOf p =
      h.childrenOf p ++ Hierarchy.gained p (h.childrenOf p) (placedIn defs ts p) := by
  rw [addInstantiations, addLinks_eq_addEdges, Hierarchy.childrenOf_addEdges, offered_links]

theorem contains_addInstantiations (defs : List String) (ts : List Token) (h : Hierarchy)
    (p : String) :
    (addInstantiations defs ts h).contains p = true ↔
      h.contains p = true ∨
        Hierarchy.gained p (h.childrenOf p) (placedIn defs ts p) ≠ [] := by
  rw [addInstantiations, addLinks_eq_addEdges, Hierarchy.contains_addEdges, offered_links]

/-- **What the second pass leaves of every module.**  It keeps the children it had and gains, in
the order of their positions and each once, the modules placed in it that are new to it and are
not the module itself; it has an entry if it had one or gained something. -/
theorem children?_addInstantiations (defs : List String) (ts : List Token) (h : Hierarchy)
    (p : String) :
    (addInstantiations defs ts h).children? p =
      if h.contains p ∨ Hierarchy.gained p (h.childrenOf p) (placedIn defs ts p) ≠ [] then
        some (h.childrenOf p ++ Hierarchy.gained p (h.childrenOf p) (placedIn defs ts p))
      else none := by
  rw [Hierarchy.children?_eq_ite, childrenOf_addInstantiations]
  exact if_congr (contains_addInstantiations defs ts h p) rfl rfl

end ModuleHierarchy.Scan
