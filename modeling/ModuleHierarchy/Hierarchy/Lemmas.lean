/-
ModuleHierarchy/Hierarchy/Lemmas.lean

What the operations on a hierarchy do to its view `children?`, and the order that they keep.

The equations for the view hold of every list of entries, in order or not, because putting an
entry stops at the first entry of its name, as looking it up does.  `Ordered` is the order of
the entries; two ordered hierarchies with the same view are equal (`Ordered.ext`), so that what
is shown of the view is shown of the hierarchy.
-/
import ModuleHierarchy.Hierarchy.Basic

namespace ModuleHierarchy.Hierarchy

variable {h : Hierarchy} {name n parent child : String}

/-! ### The view -/

@[simp] theorem children?_empty : (∅ : Hierarchy).children? n = none := rfl

theorem contains_eq_isSome (h : Hierarchy) (n : String) :
    h.contains n = (h.children? n).isSome := by
  rw [contains, children?, Option.isSome_map, Bool.eq_iff_iff, List.any_eq_true,
    List.find?_isSome]

theorem children?_eq_ite (h : Hierarchy) (n : String) :
    h.children? n = if h.contains n then some (h.childrenOf n) else none := by
  rw [contains_eq_isSome, childrenOf]
  cases h.children? n <;> rfl

theorem contains_iff_mem_keys : h.contains n = true ↔ n ∈ h.keys := by
  simp [contains, keys]

theorem find?_putEntry (e : Entry) (entries : List Entry) (n : String) :
    (putEntry e entries).find? (·.name == n) =
      if e.name = n then some e else entries.find? (·.name == n) := by
  induction entries with
  | nil => by_cases hn : e.name = n <;> simp [putEntry, hn]
  | cons x xs ih =>
    rw [putEntry]
    by_cases hlt : e.name < x.name
    · rw [if_pos hlt]
      by_cases hn : e.name = n <;> simp [hn]
    · rw [if_neg hlt]
      by_cases hx : e.name = x.name
      · by_cases hn : x.name = n <;> simp [hx, hn]
      · rw [if_neg hx, List.find?_cons, List.find?_cons, ih]
        by_cases hn : x.name = n
        · have hne : ¬ e.name = n := fun h => hx (h.trans hn.symm)
          simp [hn, hne]
        · have hb : (x.name == n) = false := by simp [hn]
          rw [hb]

@[simp] theorem children?_setChildren (h : Hierarchy) (name : String) (l : List String)
    (n : String) :
    (h.setChildren name l).children? n = if n = name then some l else h.children? n := by
  rw [children?, setChildren, find?_putEntry]
  by_cases hn : name = n
  · simp [hn]
  · simp [hn, Ne.symm hn, children?]

theorem children?_define (h : Hierarchy) (name n : String) :
    (h.define name).children? n =
      if n = name then some (h.childrenOf name) else h.children? n := by
  rw [define, tryDefine, contains_eq_isSome]
  cases hc : h.children? name with
  | none => simp [childrenOf, hc]
  | some l =>
    by_cases hn : n = name
    · simp [childrenOf, hc, hn]
    · simp [hn]

theorem children?_addChild (h : Hierarchy) (parent child n : String) :
    (h.addChild parent child).children? n =
      if n = parent ∧ parent ≠ child ∧ child ∉ h.childrenOf parent
      then some (h.childrenOf parent ++ [child]) else h.children? n := by
  rw [addChild, tryAddChild]
  by_cases hc : parent = child ∨ child ∈ h.childrenOf parent
  · rw [if_pos hc, if_neg]
    intro hn
    rcases hc with hc | hc
    · exact hn.2.1 hc
    · exact hn.2.2 hc
  · rw [if_neg hc, children?_setChildren]
    have hc' := not_or.1 hc
    by_cases hn : n = parent
    · rw [if_pos hn, if_pos ⟨hn, hc'⟩]
    · rw [if_neg hn, if_neg fun h => hn h.1]

theorem childrenOf_define (h : Hierarchy) (name n : String) :
    (h.define name).childrenOf n = h.childrenOf n := by
  rw [childrenOf, children?_define]
  by_cases hn : n = name
  · simp [hn]
  · rw [if_neg hn, childrenOf]

theorem childrenOf_addChild (h : Hierarchy) (parent child n : String) :
    (h.addChild parent child).childrenOf n =
      if n = parent ∧ parent ≠ child ∧ child ∉ h.childrenOf parent
      then h.childrenOf parent ++ [child] else h.childrenOf n := by
  rw [childrenOf, children?_addChild]
  split <;> simp [childrenOf]

/-! ### The order of the entries -/

/-- The entries stand in strictly increasing order of their names. -/
def Ordered (h : Hierarchy) : Prop :=
  Names.Increasing h.keys

theorem ordered_empty : Ordered ∅ := List.Pairwise.nil

theorem mem_map_name_putEntry {e : Entry} {entries : List Entry} :
    n ∈ (putEntry e entries).map Entry.name ↔ n = e.name ∨ n ∈ entries.map Entry.name := by
  induction entries with
  | nil => simp [putEntry]
  | cons x xs ih =>
    rw [putEntry]
    split
    · simp
    · split
      · next hx => simp [hx]
      · rw [List.map_cons, List.mem_cons, ih, List.map_cons, List.mem_cons]
        exact or_left_comm

theorem increasing_map_name_putEntry (e : Entry) {entries : List Entry}
    (hs : Names.Increasing (entries.map Entry.name)) :
    Names.Increasing ((putEntry e entries).map Entry.name) := by
  induction entries with
  | nil => simp [putEntry, Names.Increasing]
  | cons x xs ih =>
    obtain ⟨hx, hxs⟩ := List.pairwise_cons.1 hs
    rw [putEntry]
    split
    · next hlt =>
      refine List.pairwise_cons.2 ⟨fun n hn => ?_, hs⟩
      rcases List.mem_cons.1 hn with rfl | hn
      · exact hlt
      · exact String.lt_trans hlt (hx n hn)
    · next hlt =>
      split
      · next heq =>
        rw [List.map_cons, heq]
        exact hs
      · next hne =>
        refine List.pairwise_cons.2 ⟨fun n hn => ?_, ih hxs⟩
        rcases mem_map_name_putEntry.1 hn with rfl | hn
        · exact Names.lt_of_not_lt_of_ne hlt hne
        · exact hx n hn

theorem Ordered.setChildren (hs : h.Ordered) (name : String) (l : List String) :
    (h.setChildren name l).Ordered :=
  increasing_map_name_putEntry _ hs

theorem Ordered.define (hs : h.Ordered) (name : String) : (h.define name).Ordered := by
  rw [Hierarchy.define, tryDefine]
  split
  · exact hs
  · exact hs.setChildren name []

theorem Ordered.addChild (hs : h.Ordered) (parent child : String) :
    (h.addChild parent child).Ordered := by
  rw [Hierarchy.addChild, tryAddChild]
  split
  · exact hs
  · exact hs.setChildren parent _

/-- In an ordered hierarchy an entry is what its name leads to. -/
theorem Ordered.mem_entries_iff (hs : h.Ordered) {e : Entry} :
    e ∈ h.entries ↔ h.children? e.name = some e.children := by
  obtain ⟨entries⟩ := h
  have hs' : Names.Increasing (entries.map Entry.name) := hs
  show e ∈ entries ↔ (entries.find? (·.name == e.name)).map Entry.children = some e.children
  clear hs
  induction entries with
  | nil => simp
  | cons x xs ih =>
    obtain ⟨hx, hxs⟩ := List.pairwise_cons.1 hs'
    rw [List.find?_cons, List.mem_cons]
    by_cases hn : x.name = e.name
    · have hne : e ∉ xs := fun he =>
        String.lt_irrefl _ (hn ▸ hx e.name (List.mem_map_of_mem he))
      simp only [hn, beq_self_eq_true, Option.map_some, Option.some.injEq]
      constructor
      · rintro (rfl | he)
        · rfl
        · exact absurd he hne
      · intro hc
        obtain ⟨xn, xc⟩ := x
        obtain ⟨en, ec⟩ := e
        exact .inl (by simp_all)
    · have hne : e ≠ x := fun h => hn (h ▸ rfl)
      have hb : (x.name == e.name) = false := by simp [hn]
      rw [hb, ih hxs]
      simp [hne]

/-- Two ordered hierarchies with the same view are equal. -/
theorem Ordered.ext {g h : Hierarchy} (hg : g.Ordered) (hh : h.Ordered)
    (hc : ∀ n, g.children? n = h.children? n) : g = h := by
  have hkeys : g.keys = h.keys := Names.eq_of_increasing hg hh fun n => by
    rw [← contains_iff_mem_keys, ← contains_iff_mem_keys, contains_eq_isSome,
      contains_eq_isSome, hc]
  have hmem : ∀ e, e ∈ g.entries ↔ e ∈ h.entries := fun e => by
    rw [hg.mem_entries_iff, hh.mem_entries_iff, hc]
  have hlen : g.entries.length = h.entries.length := by
    simpa [keys] using congrArg List.length hkeys
  obtain ⟨gs⟩ := g
  obtain ⟨hs⟩ := h
  refine congrArg Hierarchy.mk (List.ext_getElem hlen fun i hi hi' => ?_)
  -- the entries at one position have the same name, and so the same children
  have hname : gs[i].name = hs[i].name := by
    have := congrArg (·[i]?) hkeys
    simpa [keys, hi, hi'] using this
  have hgi := (hg.mem_entries_iff).1 (List.getElem_mem hi)
  have hhi := (hh.mem_entries_iff).1 (List.getElem_mem hi')
  have hchildren : gs[i].children = hs[i].children := by
    rw [hname, hc, hhi] at hgi
    exact (Option.some.inj hgi).symm
  calc gs[i] = ⟨gs[i].name, gs[i].children⟩ := rfl
    _ = ⟨hs[i].name, hs[i].children⟩ := by rw [hname, hchildren]
    _ = hs[i] := rfl

end ModuleHierarchy.Hierarchy
