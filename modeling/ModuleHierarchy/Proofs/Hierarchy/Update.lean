/-
ModuleHierarchy/Proofs/Hierarchy/Update.lean

What a run of single updates leaves, and why their order hardly matters.  An update defines a module
or adds a child to one, and both make an entry where there is none.  Defining a module changes no
children and asks for none, so it may as well wait until all children are added
(`addEdges_define`).  This gives every run a normal form, all children first and the definitions
behind them:

    updated us = (addEdges ∅ (us.filterMap edge?)).defineAll (us.filterMap defined?).

The closed form of the entries is read off it.  A module has an entry if it is defined or is offered
a child other than itself, and its children are those offered to it, each once, in the order of
their first offer.  So two runs that offer each module the same children in the same order, and
define the same modules among those that gain no child, end in one hierarchy
(`updates_in_any_order`).
-/
import ModuleHierarchy.Proofs.Hierarchy.Run

namespace ModuleHierarchy.Hierarchy

/-! ### Updates -/

/-- A single change of a hierarchy. -/
inductive Update where
  | define (name : String)
  | addChild (parent child : String)
deriving DecidableEq, Repr

namespace Update

/-- The module whose entry an update may change. -/
def subject : Update → String
  | define name => name
  | addChild parent _ => parent

/-- The update as an operation. -/
def operation : Update → Operation
  | define name => .define name
  | addChild parent child => .addChild parent child

/-- The name that an update defines. -/
def defined? : Update → Option String
  | define name => some name
  | addChild _ _ => none

/-- The parent and the child that an update puts together. -/
def edge? : Update → Option (String × String)
  | define _ => none
  | addChild parent child => some (parent, child)

/-- The child that an update offers to a module. -/
def offer? (n : String) : Update → Option String
  | define _ => none
  | addChild parent child => if parent = n then some child else none

end Update

variable {us vs : List Update} {n c : String}

/-- The hierarchy after a run of updates on the empty one. -/
def updated (us : List Update) : Hierarchy :=
  run (us.map Update.operation)

/-- The children that the updates offer to a module, in order and as often as they do. -/
def offers (n : String) (us : List Update) : List String :=
  us.filterMap (Update.offer? n)

/-- The children that the updates leave a module. -/
def gainedFrom (us : List Update) (n : String) : List String :=
  ((offers n us).filter (· ≠ n)).eraseDups

theorem mem_defined_iff : n ∈ us.filterMap Update.defined? ↔ .define n ∈ us := by
  rw [List.mem_filterMap]
  constructor
  · rintro ⟨u, hu, hn⟩
    cases u with
    | define name => exact Option.some.inj hn ▸ hu
    | addChild parent child => cases hn
  · intro h
    exact ⟨_, h, rfl⟩

theorem mem_offers_iff : c ∈ offers n us ↔ .addChild n c ∈ us := by
  rw [offers, List.mem_filterMap]
  constructor
  · rintro ⟨u, hu, hc⟩
    cases u with
    | define name => cases hc
    | addChild parent child =>
      obtain ⟨rfl, rfl⟩ : parent = n ∧ child = c := by simpa [Update.offer?] using hc
      exact hu
  · intro h
    exact ⟨_, h, by simp [Update.offer?]⟩

theorem offered_filterMap_edge? (n : String) (us : List Update) :
    offered n (us.filterMap Update.edge?) = offers n us := by
  rw [offered, offers, List.filterMap_filterMap]
  refine List.filterMap_congr fun u _ => ?_
  cases u <;> rfl

/-! ### The normal form -/

/-- A module may be defined before children are added or behind that. -/
theorem addEdges_define {h : Hierarchy} (hs : h.Ordered) (name : String)
    (es : List (String × String)) : (h.define name).addEdges es = (h.addEdges es).define name := by
  refine ((hs.define name).addEdges es).ext ((hs.addEdges es).define name) fun n => ?_
  have hchildren : ((h.define name).addEdges es).childrenOf n =
      ((h.addEdges es).define name).childrenOf n := by
    rw [childrenOf_addEdges, childrenOf_define, childrenOf_define, childrenOf_addEdges]
  have hcontains : ((h.define name).addEdges es).contains n =
      ((h.addEdges es).define name).contains n := by
    rw [Bool.eq_iff_iff, contains_addEdges, contains_define, contains_define, contains_addEdges,
      childrenOf_define]
    exact or_right_comm
  rw [children?_eq_ite, children?_eq_ite, hchildren, hcontains]

/-- All children first, then the definitions. -/
theorem foldl_apply_updates {h : Hierarchy} (hs : h.Ordered) (us : List Update) :
    (us.map Update.operation).foldl apply h =
      (h.addEdges (us.filterMap Update.edge?)).defineAll (us.filterMap Update.defined?) := by
  induction us generalizing h with
  | nil => rfl
  | cons u us ih =>
    cases u with
    | define name =>
      have hrest := ih (hs.define name)
      rw [addEdges_define hs] at hrest
      exact hrest
    | addChild parent child => exact ih (hs.addChild parent child)

theorem updated_eq_defineAll (us : List Update) :
    updated us =
      (addEdges ∅ (us.filterMap Update.edge?)).defineAll (us.filterMap Update.defined?) :=
  foldl_apply_updates ordered_empty us

/-! ### The closed form -/

theorem ordered_updated (us : List Update) : (updated us).Ordered :=
  (wellFormed_run _).ordered

theorem childrenOf_updated (us : List Update) (n : String) :
    (updated us).childrenOf n = gainedFrom us n := by
  have hnone : (∅ : Hierarchy).childrenOf n = [] := rfl
  rw [updated_eq_defineAll, childrenOf_defineAll, childrenOf_addEdges, hnone,
    offered_filterMap_edge?, gained_nil, List.nil_append, gainedFrom]

theorem mem_keys_updated_iff :
    n ∈ (updated us).keys ↔ .define n ∈ us ∨ ∃ c, c ≠ n ∧ .addChild n c ∈ us := by
  have hnone : (∅ : Hierarchy).childrenOf n = [] := rfl
  have hempty : ¬ (∅ : Hierarchy).contains n = true := Bool.false_ne_true
  rw [← contains_iff_mem_keys, updated_eq_defineAll, contains_defineAll, contains_addEdges,
    or_iff_right hempty, hnone, offered_filterMap_edge?, gained_ne_nil_iff, mem_defined_iff, or_comm]
  refine or_congr_right (exists_congr fun c => ?_)
  rw [mem_offers_iff, and_iff_left List.not_mem_nil, and_comm]

theorem children?_updated (us : List Update) (n : String) :
    (updated us).children? n =
      if n ∈ (updated us).keys then some (gainedFrom us n) else none := by
  rw [children?_eq_ite, childrenOf_updated]
  exact if_congr contains_iff_mem_keys rfl rfl

/-! ### Runs in another order -/

/-- The modules that gain a child need not be defined, and of each module only the order of its own
offers counts. -/
theorem updated_eq_of_offers (hoffers : ∀ n, offers n us = offers n vs)
    (hdefine : ∀ n, (∀ c, .addChild n c ∈ us → c = n) → (.define n ∈ us ↔ .define n ∈ vs)) :
    updated us = updated vs := by
  refine (ordered_updated us).ext (ordered_updated vs) fun n => ?_
  have hadd (c : String) : .addChild n c ∈ us ↔ .addChild n c ∈ vs := by
    rw [← mem_offers_iff, ← mem_offers_iff, hoffers]
  have hkeys : n ∈ (updated us).keys ↔ n ∈ (updated vs).keys := by
    simp only [mem_keys_updated_iff, hadd]
    by_cases hgains : ∃ c, c ≠ n ∧ .addChild n c ∈ vs
    · exact iff_of_true (.inr hgains) (.inr hgains)
    · refine or_congr_left (hdefine n fun c hc => ?_)
      by_contra hne
      exact hgains ⟨c, hne, (hadd c).1 hc⟩
  rw [children?_updated, children?_updated, gainedFrom, gainedFrom, hoffers]
  exact if_congr hkeys rfl rfl

/-- The offers to a module are read off the updates of that module. -/
theorem offers_filter_subject (n : String) (us : List Update) :
    offers n (us.filter (·.subject = n)) = offers n us := by
  rw [offers, offers, List.filterMap_filter]
  refine List.filterMap_congr fun u _ => ?_
  cases u with
  | define name => simp [Update.offer?]
  | addChild parent child =>
    by_cases hp : parent = n <;> simp [Update.offer?, Update.subject, hp]

theorem offers_append_define (n m : String) (us vs : List Update) :
    offers n (us ++ .define m :: vs) = offers n (us ++ vs) := by
  simp [offers, List.filterMap_cons, Update.offer?]

/-- **The order of updates hardly matters.**  After a run of updates on the empty hierarchy a module
has an entry if and only if it is defined or is offered a child other than itself, and its children
are those, in the order of their first offer.  Hence two runs end in the same hierarchy if they
offer each module the same children in the same order and define the same modules, where a module
that gains a child may be defined or not.  So the updates of different modules may be interleaved
in any way, and a module that gains a child may be defined anywhere, again, or not at all. -/
theorem updates_in_any_order :
    (∀ us n, n ∈ (updated us).keys ↔ .define n ∈ us ∨ ∃ c, c ≠ n ∧ .addChild n c ∈ us) ∧
    (∀ us n, (updated us).children? n =
      if n ∈ (updated us).keys then some ((offers n us).filter (· ≠ n)).eraseDups else none) ∧
    (∀ us vs, (∀ n, (∀ c, .addChild n c ∈ us → c = n) → (.define n ∈ us ↔ .define n ∈ vs)) →
      (∀ n, offers n us = offers n vs) → updated us = updated vs) ∧
    (∀ us vs : List Update,
      (∀ n, us.filter (·.subject = n) = vs.filter (·.subject = n)) → updated us = updated vs) ∧
    ∀ us vs n c, c ≠ n → .addChild n c ∈ us ++ vs →
      updated (us ++ .define n :: vs) = updated (us ++ vs) := by
  refine ⟨fun us n => mem_keys_updated_iff, children?_updated,
    fun us vs hdefine hoffers => updated_eq_of_offers hoffers hdefine, fun us vs h => ?_,
    fun us vs n c hne hc => ?_⟩
  · refine updated_eq_of_offers (fun n => ?_) fun n _ => ?_
    · rw [← offers_filter_subject n us, h, offers_filter_subject]
    · have hmem (ws : List Update) :
          .define n ∈ ws.filter (·.subject = n) ↔ .define n ∈ ws := by
        simp [Update.subject]
      rw [← hmem us, h, hmem]
  · refine updated_eq_of_offers (fun m => offers_append_define m n us vs) fun m hm => ?_
    have hmn : m ≠ n := by
      rintro rfl
      refine hne (hm c ?_)
      simp only [List.mem_append, List.mem_cons] at hc ⊢
      exact hc.imp_right .inr
    simp [hmn]

/-- Two modules are updated in turns or one after the other; one of them is to become its own child,
and the other is offered a child twice and is defined in one run only. -/
theorem updates_in_any_order_interleaved :
    let us : List Update := [.addChild "b" "x", .define "a", .addChild "b" "y",
      .addChild "a" "a", .addChild "b" "x"]
    let vs : List Update := [.define "a", .addChild "a" "a", .define "b", .addChild "b" "x",
      .addChild "b" "y", .define "b", .addChild "b" "x"]
    updated us = updated vs ∧ (updated us).keys = ["a", "b"] ∧
      (updated us).children? "a" = some [] ∧ (updated us).children? "b" = some ["x", "y"] := by
  intro us vs
  have hkeys : (updated us).keys = ["a", "b"] := by decide
  have hoffers : ∀ n, offers n us = offers n vs := fun n => by
    by_cases ha : n = "a"
    · rw [ha]
      decide
    · by_cases hb : n = "b"
      · rw [hb]
        decide
      · simp [offers, us, vs, List.filterMap_cons, Update.offer?, Ne.symm ha, Ne.symm hb]
  have hdefine : ∀ n, (∀ c, .addChild n c ∈ us → c = n) → (.define n ∈ us ↔ .define n ∈ vs) := by
    intro n hn
    have hb : n ≠ "b" := by
      rintro rfl
      exact absurd (hn "x" (by decide)) (by decide)
    simp [us, vs, hb]
  obtain ⟨-, hchildren, hsame, -, -⟩ := updates_in_any_order
  refine ⟨hsame us vs hdefine hoffers, hkeys, ?_, ?_⟩
  · rw [hchildren, hkeys]
    decide
  · rw [hchildren, hkeys]
    decide

end ModuleHierarchy.Hierarchy
