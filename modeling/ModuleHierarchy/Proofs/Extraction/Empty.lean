/-
ModuleHierarchy/Proofs/Extraction/Empty.lean

When an extraction comes to nothing.  A name is declared as soon as some `module` has a token behind
it, of whatever kind (`declarations_ne_nil_iff`): in a run of `module` tokens each second one is a
name, and the token behind the run, if none claims it, is preceded by one that is.  So

    (scanned ts).isEmpty ↔ ¬ Declares ts,

and where the hierarchy is empty there is nothing to warn of either: a warning needs a module that
is declared or entered, and both have a `module` in front (`warnings_eq_nil`).
-/
import ModuleHierarchy.Proofs.Extraction.Assembly
import ModuleHierarchy.Proofs.Extraction.Location

namespace ModuleHierarchy

variable {ts : List Token} {defs : List String}

namespace Scan

/-- Some `module` has a token behind it. -/
def Declares (ts : List Token) : Prop :=
  ∃ i, ts[i]?.any (·.text == "module") = true ∧ i + 1 < ts.length

theorem Declares.of_declaredAt? {i : Nat} {name : Token} (h : declaredAt? ts i = some name) :
    Declares ts := by
  cases i with
  | zero => cases h
  | succ k =>
    have hmodule := module_of_declaredAt?_succ h
    rw [declaredAt?] at h
    split at h
    · exact ⟨k, hmodule, (List.getElem?_eq_some_iff.1 h).1⟩
    · cases h

/-- Behind a `module` either the next token is declared, or the `module` is. -/
theorem Declares.exists_declaredAt? (h : Declares ts) : ∃ i name, declaredAt? ts i = some name := by
  obtain ⟨i, hmodule, hlt⟩ := h
  have hrun : moduleRun ts (i + 1) = moduleRun ts i + 1 := by rw [moduleRun, if_pos hmodule]
  -- in an even run the `module` claims what follows; else it is claimed itself
  rcases Nat.mod_two_eq_zero_or_one (moduleRun ts i) with heven | hodd
  · exact ⟨i + 1, ts[i + 1], by rw [declaredAt?_of_odd (by omega), List.getElem?_eq_getElem hlt]⟩
  · exact ⟨i, ts[i], by rw [declaredAt?_of_odd hodd, List.getElem?_eq_getElem (by omega)]⟩

theorem declarations_ne_nil_iff : declarations ts ≠ [] ↔ Declares ts := by
  constructor
  · intro h
    obtain ⟨name, hname⟩ := List.exists_mem_of_ne_nil _ h
    obtain ⟨i, hi⟩ := mem_declarations_iff.1 hname
    exact .of_declaredAt? hi
  · intro h
    obtain ⟨i, name, hi⟩ := h.exists_declaredAt?
    exact List.ne_nil_of_mem (mem_declarations_iff.2 ⟨i, hi⟩)

instance (ts : List Token) : Decidable (Declares ts) :=
  decidable_of_iff _ declarations_ne_nil_iff

theorem Declares.of_opening {i : Nat} {name : Token} (h : event? ts i = some (.opening name)) :
    Declares ts := by
  obtain ⟨hmodule, hname⟩ := opening_eq_some h
  exact ⟨i, hmodule, (List.getElem?_eq_some_iff.1 hname).1⟩

/-! ### The hierarchy -/

theorem definitions_eq_nil (h : ¬ Declares ts) : definitions ts = [] := by
  rw [definitions, not_not.1 (mt declarations_ne_nil_iff.1 h)]
  rfl

/-- The hierarchy of a list of tokens is empty if no `module` has a token behind it. -/
theorem isEmpty_scanned_iff : (scanned ts).isEmpty = true ↔ ¬ Declares ts := by
  rw [Hierarchy.isEmpty, List.isEmpty_iff]
  constructor
  · intro hempty h
    obtain ⟨i, name, hi⟩ := h.exists_declaredAt?
    have hcontains := contains_scanned_of_mem_definitions (mem_definitions_iff.2 ⟨i, name, hi, rfl⟩)
    rw [Hierarchy.contains, hempty] at hcontains
    cases hcontains
  · intro h
    suffices hkeys : (scanned ts).keys = [] from List.map_eq_nil_iff.1 hkeys
    refine List.eq_nil_iff_forall_not_mem.2 fun n hn => ?_
    rw [← Extraction.hierarchy_ofTokens_empty] at hn
    rcases Extraction.mem_keys_ofTokens_empty.1 hn with hdefined | ⟨i, _, _, howner, -⟩
    · rw [definitions_eq_nil h] at hdefined
      cases hdefined
    · obtain ⟨j, hj⟩ := exists_opening_of_owner? howner
      exact h (.of_opening hj)

/-! ### The warnings -/

theorem Declares.of_mem_unclosedModules {w : Warning} (h : w ∈ unclosedModules defs ts) :
    Declares ts := by
  obtain ⟨i, hi⟩ := exists_opening_of_mem_unclosedModules h
  exact .of_opening hi

end Scan

theorem Extraction.warnings_eq_nil (h : ¬ Scan.Declares ts) (g : Hierarchy) :
    (ofTokens ts g).warnings = [] := by
  refine List.append_eq_nil_iff.2 ⟨?_, List.eq_nil_iff_forall_not_mem.2 fun w hw => ?_⟩
  · rw [Scan.redefinitions, not_not.1 (mt Scan.declarations_ne_nil_iff.1 h)]
    rfl
  · exact h (.of_mem_unclosedModules hw)

end ModuleHierarchy
