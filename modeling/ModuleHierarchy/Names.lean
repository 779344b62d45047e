/-
ModuleHierarchy/Names.lean

Sets of names, kept as lists in strictly increasing order.  Names are compared by their
characters' code points.

`mem_ofList` and `increasing_ofList` say what the list of a set is: the members and nothing
else, in order.  `eq_of_increasing` is why this settles the list, so that equal sets are equal
lists.
-/
import ModuleHierarchy.Text.Printable

namespace ModuleHierarchy.Names

/-- Adds a name at its place in an increasing list, unless it is there. -/
def insert (name : String) : List String → List String
  | [] => [name]
  | n :: ns =>
    if name < n then name :: n :: ns
    else if name = n then n :: ns
    else n :: insert name ns

/-- The names of a list in increasing order, each once. -/
def ofList (names : List String) : List String :=
  names.foldr insert []

/-- The names of a list stand in strictly increasing order. -/
def Increasing (names : List String) : Prop :=
  names.Pairwise (· < ·)

/-- How log messages show a set of names. -/
def inspect (names : List String) : String :=
  "\x7b" ++ ", ".intercalate (names.map Text.quoted) ++ "\x7d"

/-! ### Members -/

theorem mem_insert {x name : String} {names : List String} :
    x ∈ insert name names ↔ x = name ∨ x ∈ names := by
  induction names with
  | nil => simp [insert]
  | cons n ns ih =>
    rw [insert]
    split
    · simp
    · split
      · next h => simp [h]
      · simp only [List.mem_cons, ih]
        exact or_left_comm

theorem mem_ofList {x : String} {names : List String} : x ∈ ofList names ↔ x ∈ names := by
  induction names with
  | nil => simp [ofList]
  | cons n ns ih =>
    show x ∈ insert n (ofList ns) ↔ x ∈ n :: ns
    rw [mem_insert, ih, List.mem_cons]

/-! ### Order -/

theorem lt_of_not_lt_of_ne {a b : String} (h : ¬ a < b) (hne : a ≠ b) : b < a := by
  rcases Decidable.em (b < a) with hlt | hlt
  · exact hlt
  · exact absurd (String.le_antisymm (String.not_lt.1 hlt) (String.not_lt.1 h)) hne

theorem Increasing.insert {names : List String} (h : Increasing names) (name : String) :
    Increasing (insert name names) := by
  induction names with
  | nil => simp [Names.insert, Increasing]
  | cons n ns ih =>
    obtain ⟨hn, hns⟩ := List.pairwise_cons.1 h
    rw [Names.insert]
    split
    · next hlt =>
      refine List.pairwise_cons.2 ⟨fun x hx => ?_, h⟩
      rcases List.mem_cons.1 hx with rfl | hx
      · exact hlt
      · exact String.lt_trans hlt (hn x hx)
    · next hlt =>
      split
      · exact h
      · next hne =>
        refine List.pairwise_cons.2 ⟨fun x hx => ?_, ih hns⟩
        rcases mem_insert.1 hx with rfl | hx
        · exact lt_of_not_lt_of_ne hlt hne
        · exact hn x hx

theorem increasing_ofList (names : List String) : Increasing (ofList names) := by
  induction names with
  | nil => exact List.Pairwise.nil
  | cons n ns ih => exact ih.insert n

/-- No name stands twice in an increasing list. -/
theorem Increasing.nodup {names : List String} (h : Increasing names) : names.Nodup := by
  refine h.imp fun {a b} hlt => ?_
  rintro rfl
  exact String.lt_irrefl _ hlt

/-- Two increasing lists with the same members are equal. -/
theorem eq_of_increasing {l₁ l₂ : List String} (h₁ : Increasing l₁) (h₂ : Increasing l₂)
    (h : ∀ x, x ∈ l₁ ↔ x ∈ l₂) : l₁ = l₂ := by
  induction l₁ generalizing l₂ with
  | nil =>
    cases l₂ with
    | nil => rfl
    | cons b l₂ => simpa using h b
  | cons a l₁ ih =>
    cases l₂ with
    | nil => simpa using h a
    | cons b l₂ =>
      obtain ⟨ha, ht₁⟩ := List.pairwise_cons.1 h₁
      obtain ⟨hb, ht₂⟩ := List.pairwise_cons.1 h₂
      -- each head is the least member of its list, so the heads agree
      have hab : a = b := by
        rcases List.mem_cons.1 ((h a).1 List.mem_cons_self) with hab | hab
        · exact hab
        · rcases List.mem_cons.1 ((h b).2 List.mem_cons_self) with hba | hba
          · exact hba.symm
          · exact absurd (hb a hab) (String.lt_asymm (ha b hba))
      subst hab
      refine congrArg (a :: ·) (ih ht₁ ht₂ fun x => ⟨fun hx => ?_, fun hx => ?_⟩)
      · rcases List.mem_cons.1 ((h x).1 (List.mem_cons_of_mem _ hx)) with rfl | hx'
        · exact absurd (ha x hx) (String.lt_irrefl x)
        · exact hx'
      · rcases List.mem_cons.1 ((h x).2 (List.mem_cons_of_mem _ hx)) with rfl | hx'
        · exact absurd (hb x hx) (String.lt_irrefl x)
        · exact hx'

end ModuleHierarchy.Names
