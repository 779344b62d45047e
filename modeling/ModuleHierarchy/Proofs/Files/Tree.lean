/-
ModuleHierarchy/Proofs/Files/Tree.lean

What writing a file does to a file tree.  A write that succeeds puts one file at one place, where
no directory stands, and changes no other place (`exists_put_of_write`).  So a directory stays one,
every walk over names that could be made before can still be made (`foldlM_step_put`), and the path
that was written leads to the text (`read_of_write`):

    t.write path text = .ok after → after.read path = .ok text.
-/
import Mathlib.Data.List.Basic
import ModuleHierarchy.Files.Tree
import ModuleHierarchy.Proofs.Text.Slice

namespace ModuleHierarchy.FileTree

open Text

variable {t after : FileTree} {place other : Place} {node : Node} {path text name : String}

theorem fromUTF8?_toUTF8 (text : String) : String.fromUTF8? text.toUTF8 = some text := by
  unfold String.fromUTF8?
  rw [String.toUTF8_eq_toByteArray, dif_pos text.isValidUTF8]
  rfl

/-! ### Putting a node -/

theorem lookup_filter_ne (hne : other ≠ place) (nodes : List (Place × Node)) :
    (nodes.filter (·.1 ≠ place)).lookup other = nodes.lookup other := by
  induction nodes with
  | nil => rfl
  | cons x xs ih =>
    obtain ⟨key, node⟩ := x
    by_cases hkey : key = place
    · rw [List.filter_cons_of_neg (by simpa using hkey), ih, List.lookup_cons,
        beq_eq_false_iff_ne.2 fun h => hne (h.trans hkey)]
    · rw [List.filter_cons_of_pos (by simpa using hkey), List.lookup_cons, List.lookup_cons, ih]

theorem node?_put_self (hplace : place ≠ []) (t : FileTree) (node : Node) :
    (t.put place node).node? place = some node := by
  rw [node?, if_neg hplace, put, List.lookup_cons, beq_self_eq_true]

theorem node?_put_of_ne (hne : other ≠ place) (t : FileTree) (node : Node) :
    (t.put place node).node? other = t.node? other := by
  rw [node?, node?]
  split
  · rfl
  · rw [put, List.lookup_cons, beq_eq_false_iff_ne.2 hne]
    exact lookup_filter_ne hne t.nodes

/-! ### Walking on after a node was put -/

section Walk

variable (hplace : t.isDirectory place = false)

include hplace

theorem ne_nil_of_not_isDirectory : place ≠ [] := by
  rintro rfl
  exact absurd hplace (by simp [isDirectory, node?])

theorem isDirectory_put (h : t.isDirectory other = true) (node : Node) :
    (t.put place node).isDirectory other = true := by
  have hne : other ≠ place := by
    rintro rfl
    rw [hplace] at h
    cases h
  rw [isDirectory, node?_put_of_ne hne]
  exact h

theorem isSome_node?_put (h : (t.node? other).isSome = true) (node : Node) :
    ((t.put place node).node? other).isSome = true := by
  by_cases hother : other = place
  · rw [hother, node?_put_self (ne_nil_of_not_isDirectory hplace)]
    rfl
  · rw [node?_put_of_ne hother]
    exact h

theorem follow_put {dir : Place} (h : t.follow dir name = .ok other) (node : Node) :
    (t.put place node).follow dir name = .ok other := by
  rw [follow] at h ⊢
  split at h
  · cases h
  · next hdir =>
    have hdir' : t.isDirectory dir = true := by simpa using hdir
    rw [isDirectory_put hplace hdir' node]
    exact h

theorem step_put {dir : Place} (h : t.step dir name = .ok other) (node : Node) :
    (t.put place node).step dir name = .ok other := by
  obtain ⟨next, hnext, hstep⟩ := exists_ok_of_bind h
  rw [step, follow_put hplace hnext node]
  show (if ((t.put place node).node? next).isSome then _ else _) = _
  split at hstep
  · next hsome => rw [if_pos (isSome_node?_put hplace hsome node), hstep]
  · cases hstep

theorem foldlM_step_put {names : List String} {dir : Place}
    (h : names.foldlM t.step dir = .ok other) (node : Node) :
    names.foldlM (t.put place node).step dir = .ok other := by
  induction names generalizing dir with
  | nil => exact h
  | cons name names ih =>
    rw [List.foldlM_cons] at h ⊢
    obtain ⟨next, hnext, hrest⟩ := exists_ok_of_bind h
    rw [step_put hplace hnext node]
    exact ih hrest

end Walk

/-! ### Writing -/

/-- A write that succeeds puts one file at the place that the path leads to. -/
theorem exists_put_of_write (h : t.write path text = .ok after) :
    pathError? path = none ∧ wantsDirectory path = false ∧ ∃ parent name place,
      (names path).dropLast.foldlM t.step (t.start path) = .ok parent ∧
      (names path).getLast? = some name ∧ t.follow parent name = .ok place ∧
      t.isDirectory place = false ∧ after = t.put place (.file text.toUTF8) := by
  rw [write] at h
  cases herror : pathError? path with
  | some e =>
    rw [herror] at h
    cases h
  | none =>
    rw [herror] at h
    obtain ⟨parent, hparent, h⟩ := exists_ok_of_bind h
    cases hname : (names path).getLast? with
    | none =>
      rw [hname] at h
      cases h
    | some name =>
      rw [hname] at h
      obtain ⟨place, hplace, h⟩ := exists_ok_of_bind h
      cases hdir : wantsDirectory path || t.isDirectory place with
      | true =>
        rw [hdir] at h
        cases h
      | false =>
        rw [hdir] at h
        obtain ⟨hwants, hdirectory⟩ := Bool.or_eq_false_iff.1 hdir
        exact ⟨rfl, hwants, parent, name, place, hparent, rfl, hplace, hdirectory,
          (Except.ok.inj h).symm⟩

/-- The path that was written leads to the text. -/
theorem read_of_write (h : t.write path text = .ok after) : after.read path = .ok text := by
  obtain ⟨herror, hwants, parent, name, place, hparent, hname, hfollow, hplace, rfl⟩ :=
    exists_put_of_write h
  have hnode := node?_put_self (ne_nil_of_not_isDirectory hplace) t (.file text.toUTF8)
  have hstep : (t.put place (.file text.toUTF8)).step parent name = .ok place := by
    rw [step, follow_put hplace hfollow]
    show (if ((t.put place _).node? place).isSome then _ else _) = _
    rw [hnode]
    rfl
  have hwalk : (names path).foldlM (t.put place (.file text.toUTF8)).step (t.start path) =
      pure place := by
    -- the walk to the parent can be made as before, and the last step meets the file
    rw [← List.dropLast_append_getLast? name hname, List.foldlM_append,
      foldlM_step_put hplace hparent]
    show [name].foldlM (t.put place (.file text.toUTF8)).step parent = pure place
    rw [List.foldlM_cons, hstep]
    rfl
  have hstart : (t.put place (.file text.toUTF8)).start path = t.start path := rfl
  rw [read, herror, hstart, hwalk]
  simp only [pure_bind, hnode, hwants, fromUTF8?_toUTF8]
  rfl

/-- A write changes one place only. -/
theorem node?_of_write (h : t.write path text = .ok after) :
    ∃ place, after.node? place = some (.file text.toUTF8) ∧
      ∀ other, other ≠ place → after.node? other = t.node? other := by
  obtain ⟨-, -, _, _, place, -, -, -, hplace, rfl⟩ := exists_put_of_write h
  exact ⟨place, node?_put_self (ne_nil_of_not_isDirectory hplace) t _,
    fun other hne => node?_put_of_ne hne t _⟩

end ModuleHierarchy.FileTree
