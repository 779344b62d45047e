/-
ModuleHierarchy/Proofs/Hierarchy/Growth.lean

What a run of changes leaves of a hierarchy, whatever the hierarchy was before.

* `addEdges` adds pairs of a parent and a child in order.  A module ends up with the children it
  had and, behind them, those it gained: the children `offered` to it that are new to it and are
  not the module itself, each once, in the order of their first offer (`gained`).
* A module has an entry afterwards if it had one or gained a child (`contains_addEdges`), or if
  it was defined (`contains_defineAll`); defining changes no children.

All of this is said of the view of a hierarchy, so it holds of entries in any order.
-/
import Mathlib.Data.List.Basic
import Mathlib.Data.List.Induction
import ModuleHierarchy.Hierarchy.Lemmas

namespace ModuleHierarchy.Hierarchy

variable {h : Hierarchy} {name n : String}

/-! ### Offers and gains -/

/-- The hierarchy after adding pairs of a parent and a child in order. -/
def addEdges (h : Hierarchy) (es : List (String × String)) : Hierarchy :=
  es.foldl (fun h e => h.addChild e.1 e.2) h

/-- The children that a list of pairs offers to a module, in order. -/
def offered (name : String) (es : List (String × String)) : List String :=
  es.filterMap fun e => if e.1 = name then some e.2 else none

/-- The children that a module with the children `old` gains when these are offered to it. -/
def gained (name : String) (old offer : List String) : List String :=
  (offer.filter fun c => c ≠ name ∧ c ∉ old).eraseDups

@[simp] theorem offered_cons_self (name child : String) (es : List (String × String)) :
    offered name ((name, child) :: es) = child :: offered name es := by
  simp [offered]

theorem offered_cons_of_ne {parent : String} (hp : parent ≠ name) (child : String)
    (es : List (String × String)) : offered name ((parent, child) :: es) = offered name es := by
  simp [offered, hp]

theorem offered_append (name : String) (es es' : List (String × String)) :
    offered name (es ++ es') = offered name es ++ offered name es' :=
  List.filterMap_append

theorem offered_map_self (name : String) (children : List String) :
    offered name (children.map fun c => (name, c)) = children := by
  induction children with
  | nil => rfl
  | cons c cs ih => rw [List.map_cons, offered_cons_self, ih]

theorem offered_map_of_ne {parent : String} (hp : parent ≠ name) (children : List String) :
    offered name (children.map fun c => (parent, c)) = [] := by
  induction children with
  | nil => rfl
  | cons c cs ih => rw [List.map_cons, offered_cons_of_ne hp, ih]

section Keyed

variable {α : Type} {key : α → String} {children : α → List String} {as : List α} {a : α}

/-- Pairs under other names offer nothing. -/
theorem offered_flatMap_of_notMem (hn : name ∉ as.map key) :
    offered name (as.flatMap fun x => (children x).map fun c => (key x, c)) = [] := by
  induction as with
  | nil => rfl
  | cons x xs ih =>
    rw [List.map_cons, List.mem_cons, not_or] at hn
    rw [List.flatMap_cons, offered_append, offered_map_of_ne (Ne.symm hn.1), ih hn.2]
    rfl

/-- Of lists of pairs under different names, only the one under a name offers to it. -/
theorem offered_flatMap_of_mem (hs : (as.map key).Nodup) (ha : a ∈ as) :
    offered (key a) (as.flatMap fun x => (children x).map fun c => (key x, c)) = children a := by
  induction as with
  | nil => exact absurd ha List.not_mem_nil
  | cons x xs ih =>
    obtain ⟨hx, hxs⟩ := List.nodup_cons.1 hs
    rw [List.flatMap_cons, offered_append]
    rcases List.mem_cons.1 ha with rfl | ha
    · rw [offered_map_self, offered_flatMap_of_notMem hx, List.append_nil]
    · have hne : key x ≠ key a := fun h => hx (h ▸ List.mem_map_of_mem ha)
      rw [offered_map_of_ne hne, ih hxs ha, List.nil_append]

end Keyed

theorem gained_nil (name : String) (offer : List String) :
    gained name [] offer = (offer.filter (· ≠ name)).eraseDups := by
  simp [gained]

theorem gained_ne_nil_iff {old offer : List String} :
    gained name old offer ≠ [] ↔ ∃ c ∈ offer, c ≠ name ∧ c ∉ old := by
  constructor
  · intro hne
    obtain ⟨c, hc⟩ := List.exists_mem_of_ne_nil _ hne
    obtain ⟨hoffer, hnew⟩ := List.mem_filter.1 (List.mem_eraseDups.1 hc)
    exact ⟨c, hoffer, of_decide_eq_true hnew⟩
  · rintro ⟨c, hoffer, hnew⟩ hnil
    have hc : c ∈ gained name old offer :=
      List.mem_eraseDups.2 (List.mem_filter.2 ⟨hoffer, decide_eq_true hnew⟩)
    rw [hnil] at hc
    exact absurd hc List.not_mem_nil

theorem gained_cons_of_refused {old offer : List String} {c : String} (hc : name = c ∨ c ∈ old) :
    gained name old (c :: offer) = gained name old offer := by
  rw [gained, List.filter_cons_of_neg, gained]
  rcases hc with rfl | hc
  · simp
  · simp [hc]

theorem gained_cons_of_new {old offer : List String} {c : String} (hne : name ≠ c)
    (hc : c ∉ old) : gained name old (c :: offer) = c :: gained name (old ++ [c]) offer := by
  rw [gained, List.filter_cons_of_pos (by simp [Ne.symm hne, hc]), List.eraseDups_cons, gained,
    List.filter_filter]
  refine congrArg (fun l => c :: List.eraseDups l) (List.filter_congr fun x _ => ?_)
  by_cases hx : x = c <;> simp [hx]

theorem eraseDups_concat (l : List String) (a : String) :
    (l ++ [a]).eraseDups = l.eraseDups ++ if a ∈ l then [] else [a] := by
  rw [List.eraseDups_append]
  by_cases ha : a ∈ l <;> simp [List.removeAll, List.eraseDups_cons, ha]

/-- What a test leaves out of a list does not change which members stand first. -/
theorem eraseDups_filter (p : String → Bool) (l : List String) :
    (l.filter p).eraseDups = l.eraseDups.filter p := by
  induction l using List.reverseRecOn with
  | nil => rfl
  | append_singleton l a ih =>
    rw [eraseDups_concat, List.filter_append, List.filter_append, ← ih]
    by_cases hp : p a = true
    · rw [List.filter_cons_of_pos hp, List.filter_nil, eraseDups_concat]
      by_cases ha : a ∈ l <;> simp [hp, ha]
    · rw [List.filter_cons_of_neg hp, List.filter_nil, List.append_nil]
      by_cases ha : a ∈ l <;> simp [hp, ha]

/-- Of a part of the offer that a test picks, the module gains that part of what it gains. -/
theorem gained_filter (name : String) (old : List String) (p : String → Bool)
    (offer : List String) :
    gained name old (offer.filter p) = (gained name old offer).filter p := by
  rw [gained, gained, ← eraseDups_filter, List.filter_comm]

/-- What is offered later is gained later. -/
theorem gained_isPrefix (name : String) (old : List String) {offer offer' : List String}
    (h : offer <+: offer') : gained name old offer <+: gained name old offer' := by
  obtain ⟨later, rfl⟩ := h
  rw [gained, gained, List.filter_append, List.eraseDups_append]
  exact List.prefix_append _ _

/-! ### Adding children -/

theorem childrenOf_addEdges (h : Hierarchy) (es : List (String × String)) (name : String) :
    (h.addEdges es).childrenOf name =
      h.childrenOf name ++ gained name (h.childrenOf name) (offered name es) := by
  induction es generalizing h with
  | nil => simp [addEdges, offered, gained]
  | cons e es ih =>
    obtain ⟨parent, child⟩ := e
    have hstep : (h.addEdges ((parent, child) :: es)) = (h.addChild parent child).addEdges es := rfl
    rw [hstep, ih, childrenOf_addChild]
    by_cases hp : parent = name
    · subst hp
      rw [offered_cons_self]
      by_cases hc : parent = child ∨ child ∈ h.childrenOf parent
      · rw [gained_cons_of_refused hc, if_neg]
        rintro ⟨-, hne, hnot⟩
        exact hc.elim hne hnot
      · obtain ⟨hne, hnot⟩ := not_or.1 hc
        rw [gained_cons_of_new hne hnot, if_pos ⟨rfl, hne, hnot⟩, List.append_assoc,
          List.singleton_append]
    · rw [offered_cons_of_ne hp, if_neg fun hn => hp hn.1.symm]

theorem contains_addChild (h : Hierarchy) (parent child n : String) :
    (h.addChild parent child).contains n = true ↔
      h.contains n = true ∨ (n = parent ∧ parent ≠ child ∧ child ∉ h.childrenOf parent) := by
  rw [contains_eq_isSome, contains_eq_isSome, children?_addChild]
  split
  · next hnew => simp [hnew]
  · next hold => simp [hold]

theorem contains_addEdges (h : Hierarchy) (es : List (String × String)) (name : String) :
    (h.addEdges es).contains name = true ↔
      h.contains name = true ∨ gained name (h.childrenOf name) (offered name es) ≠ [] := by
  induction es generalizing h with
  | nil => simp [addEdges, offered, gained]
  | cons e es ih =>
    obtain ⟨parent, child⟩ := e
    have hstep : (h.addEdges ((parent, child) :: es)) = (h.addChild parent child).addEdges es := rfl
    rw [hstep, ih, contains_addChild, childrenOf_addChild]
    by_cases hp : parent = name
    · subst hp
      rw [offered_cons_self]
      by_cases hc : parent = child ∨ child ∈ h.childrenOf parent
      · have hnot : ¬ (parent = parent ∧ parent ≠ child ∧ child ∉ h.childrenOf parent) :=
          fun hn => hc.elim hn.2.1 hn.2.2
        rw [gained_cons_of_refused hc, if_neg hnot, or_iff_left hnot]
      · obtain ⟨hne, hnot⟩ := not_or.1 hc
        simp [gained_cons_of_new hne hnot, hne, hnot]
    · have hnot : ¬ (name = parent ∧ parent ≠ child ∧ child ∉ h.childrenOf parent) :=
        fun hn => hp hn.1.symm
      rw [offered_cons_of_ne hp, if_neg hnot, or_iff_left hnot]

/-- Adding the pair changes nothing: the child is there already, or it is the module itself. -/
def Absorbs (h : Hierarchy) (e : String × String) : Prop :=
  e.1 = e.2 ∨ e.2 ∈ h.childrenOf e.1

theorem Absorbs.tryAddChild {e : String × String} (he : h.Absorbs e) :
    h.tryAddChild e.1 e.2 = (false, h) := by
  rw [Hierarchy.tryAddChild]
  exact if_pos he

theorem absorbs_addEdges (h : Hierarchy) {es : List (String × String)} {e : String × String}
    (he : e ∈ es) : (h.addEdges es).Absorbs e := by
  rw [Absorbs, childrenOf_addEdges, List.mem_append, gained, List.mem_eraseDups, List.mem_filter]
  by_cases hself : e.1 = e.2
  · exact .inl hself
  · by_cases hold : e.2 ∈ h.childrenOf e.1
    · exact .inr (.inl hold)
    · have hoffer : e.2 ∈ offered e.1 es := List.mem_filterMap.2 ⟨e, he, if_pos rfl⟩
      exact .inr (.inr ⟨hoffer, decide_eq_true ⟨Ne.symm hself, hold⟩⟩)

theorem addEdges_eq_self {es : List (String × String)} (hes : ∀ e ∈ es, h.Absorbs e) :
    h.addEdges es = h := by
  induction es with
  | nil => rfl
  | cons e es ih =>
    obtain ⟨he, hes⟩ := List.forall_mem_cons.1 hes
    have hadd : h.addChild e.1 e.2 = h := by
      rw [addChild, he.tryAddChild]
    have hstep : h.addEdges (e :: es) = (h.addChild e.1 e.2).addEdges es := rfl
    rw [hstep, hadd, ih hes]

theorem Ordered.addEdges (hs : h.Ordered) (es : List (String × String)) :
    (h.addEdges es).Ordered := by
  induction es generalizing h with
  | nil => exact hs
  | cons e es ih => exact ih (hs.addChild e.1 e.2)

/-! ### Defining -/

theorem contains_define (h : Hierarchy) (name n : String) :
    (h.define name).contains n = true ↔ h.contains n = true ∨ n = name := by
  rw [contains_eq_isSome, contains_eq_isSome, children?_define]
  split
  · next hn => simp [hn]
  · next hn => simp [hn]

theorem contains_defineAll (h : Hierarchy) (names : List String) (n : String) :
    (h.defineAll names).contains n = true ↔ h.contains n = true ∨ n ∈ names := by
  induction names generalizing h with
  | nil => simp [defineAll]
  | cons name names ih =>
    have hstep : h.defineAll (name :: names) = (h.define name).defineAll names := rfl
    rw [hstep, ih, contains_define, List.mem_cons, or_assoc]

/-- Modules that have an entry already are defined in vain. -/
theorem defineAll_eq_self {names : List String} (hn : ∀ n ∈ names, h.contains n = true) :
    h.defineAll names = h := by
  induction names with
  | nil => rfl
  | cons name names ih =>
    obtain ⟨hname, hnames⟩ := List.forall_mem_cons.1 hn
    have hdefine : h.define name = h := by
      rw [define, tryDefine, if_pos hname]
    have hstep : h.defineAll (name :: names) = (h.define name).defineAll names := rfl
    rw [hstep, hdefine, ih hnames]

theorem childrenOf_defineAll (h : Hierarchy) (names : List String) (n : String) :
    (h.defineAll names).childrenOf n = h.childrenOf n := by
  induction names generalizing h with
  | nil => rfl
  | cons name names ih =>
    have hstep : h.defineAll (name :: names) = (h.define name).defineAll names := rfl
    rw [hstep, ih, childrenOf_define]

theorem Ordered.defineAll (hs : h.Ordered) (names : List String) :
    (h.defineAll names).Ordered := by
  induction names generalizing h with
  | nil => exact hs
  | cons name names ih => exact ih (hs.define name)

end ModuleHierarchy.Hierarchy
