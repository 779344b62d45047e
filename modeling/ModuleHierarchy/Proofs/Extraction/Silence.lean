/-
ModuleHierarchy/Proofs/Extraction/Silence.lean

What the second pass warns of, and when an extraction has nothing to say.  The pass warns at a
position if a module starts there while the last event before it has started another one
(`reopenedAt?`), and of nothing else; the definitions and the hierarchy play no part
(`unclosedModules_eq_filterMap`).

With the names that the first pass warns of this gives all diagnostics of a source by position
(`diagnostics_extract`).

A position stands in a module if and only if some module starts before it and no `endmodule` comes
in between (`isSome_owner?_iff`), however many other modules start there too.  So a source has no
diagnostic if and only if

* the declared names differ from each other, and
* an `endmodule` stands between any two starts of modules.

The first is about what the first pass takes for a name, the second about what the second pass takes
for a start.  They need not be the same tokens.
-/
import ModuleHierarchy.Proofs.Scan.Declared

namespace ModuleHierarchy

namespace Scan

variable {defs : List String} {ts : List Token} {i : Nat}

/-! ### Positions inside of a module -/

theorem event?_eq_closing_iff :
    event? ts i = some .closing ↔ ts[i]?.any (·.text == "endmodule") = true := by
  rw [event?]
  cases ts[i]? with
  | none => simp
  | some t =>
    by_cases hend : t.text = "endmodule"
    · simp [hend]
    · by_cases hmodule : t.text = "module" <;> simp [hend, hmodule]

/-- A position stands in a module if one starts before it and is not closed in between. -/
theorem isSome_owner?_iff :
    (owner? ts i).isSome = true ↔
      ∃ j name, j < i ∧ event? ts j = some (.opening name) ∧
        ∀ k, j < k → k < i → event? ts k ≠ some .closing := by
  induction i with
  | zero => exact iff_of_false Bool.false_ne_true fun ⟨_, _, hj, _⟩ => absurd hj (Nat.not_lt_zero _)
  | succ i ih =>
    rw [owner?_succ]
    cases hevent : event? ts i with
    | none =>
      -- the position before stands in the same module
      rw [ih]
      constructor
      · rintro ⟨j, name, hj, hopen, hstay⟩
        refine ⟨j, name, Nat.lt_succ_of_lt hj, hopen, fun k hjk hk => ?_⟩
        rcases Nat.lt_succ_iff_lt_or_eq.1 hk with hk | rfl
        · exact hstay k hjk hk
        · rw [hevent]
          exact Option.some_ne_none _ |>.symm
      · rintro ⟨j, name, hj, hopen, hstay⟩
        rcases Nat.lt_succ_iff_lt_or_eq.1 hj with hj | rfl
        · exact ⟨j, name, hj, hopen, fun k hjk hk => hstay k hjk (Nat.lt_succ_of_lt hk)⟩
        · rw [hevent] at hopen
          cases hopen
    | some e =>
      cases e with
      | closing =>
        refine iff_of_false Bool.false_ne_true ?_
        rintro ⟨j, name, hj, hopen, hstay⟩
        rcases Nat.lt_succ_iff_lt_or_eq.1 hj with hj | rfl
        · exact hstay i hj (Nat.lt_succ_self i) hevent
        · rw [hevent] at hopen
          cases hopen
      | opening name =>
        refine iff_of_true rfl ⟨i, name, Nat.lt_succ_self i, hevent, fun k hik hk => ?_⟩
        omega

/-! ### The warnings of the second pass -/

/-- The module that is still open and the one that starts at a position, if both are there. -/
def reopenedAt? (ts : List Token) (i : Nat) : Option (Token × Token) :=
  match event? ts i with
  | some (.opening inner) => (owner? ts i).map fun outer => (outer, inner)
  | _ => none

theorem unclosedModules_eq_filterMap (defs : List String) (ts : List Token) :
    unclosedModules defs ts =
      (List.range ts.length).filterMap fun i =>
        (reopenedAt? ts i).map fun (outer, inner) => .unclosed outer inner := by
  rw [unclosedModules, findings_eq_filterMap, List.filterMap_filterMap]
  refine List.filterMap_congr fun i _ => ?_
  rw [findingAt?, reopenedAt?]
  cases event? ts i with
  | none =>
    -- at most an instantiation is found here, which is no reason for a warning
    cases placedAt? defs ts i <;> cases owner? ts i <;> rfl
  | some e => cases e <;> cases owner? ts i <;> rfl

theorem unclosedModules_eq_nil_iff :
    unclosedModules defs ts = [] ↔
      ∀ i j outer inner, i < j → event? ts i = some (.opening outer) →
        event? ts j = some (.opening inner) → ∃ k, i < k ∧ k < j ∧ event? ts k = some .closing := by
  have hat (j : Nat) : reopenedAt? ts j = none ↔
      ∀ inner, event? ts j = some (.opening inner) → ¬ (owner? ts j).isSome = true := by
    rw [reopenedAt?]
    split
    · next inner hevent => simp [hevent]
    · next hevent => exact iff_of_true rfl fun inner hinner => absurd hinner (hevent inner)
  have hlt {j : Nat} {inner : Token} (hevent : event? ts j = some (.opening inner)) :
      j < ts.length := by
    obtain ⟨t, ht, -⟩ := module_or_endmodule_of_event? hevent
    exact (List.getElem?_eq_some_iff.1 ht).1
  rw [unclosedModules_eq_filterMap, List.filterMap_eq_nil_iff]
  constructor
  · intro h i j outer inner hij hopen hstart
    have hnone := (hat j).1 (Option.map_eq_none_iff.1 (h j (List.mem_range.2 (hlt hstart)))) inner
      hstart
    by_contra hstay
    refine hnone (isSome_owner?_iff.2 ⟨i, outer, hij, hopen, fun k hik hkj hclosing => ?_⟩)
    exact hstay ⟨k, hik, hkj, hclosing⟩
  · intro h j _
    refine Option.map_eq_none_iff.2 ((hat j).2 fun inner hstart howner => ?_)
    obtain ⟨i, outer, hij, hopen, hstay⟩ := isSome_owner?_iff.1 howner
    obtain ⟨k, hik, hkj, hclosing⟩ := h i j outer inner hij hopen hstart
    exact hstay k hik hkj hclosing

end Scan

/-! ### The warnings of both passes -/

open Scan in
/-- What a source is warned of, by the positions of its tokens: the names that are declared again,
and then the modules that start in an open one. -/
def Source.warningsByPosition (s : Source) : List Diagnostic :=
  let ts := s.tokens
  let redefined := (List.range ts.length).filterMap fun i =>
    ((declaredAt? ts i).filter fun name =>
      ∃ j < i, (declaredAt? ts j).map Token.text = some name.text).map fun name =>
        { severity := .warning
          message := s!"module `{name.text}` is defined more than once"
          segments := [.location ⟨s, name.line⟩,
            .note "all definitions are merged into one node of the hierarchy"] }
  let unclosed := (List.range ts.length).filterMap fun i =>
    (reopenedAt? ts i).map fun (outer, inner) =>
      { severity := .warning
        message := s!"module `{inner.text}` starts before module `{outer.text}` is closed"
        segments := [.location ⟨s, inner.line⟩,
          .note s!"`{outer.text}` (line {outer.line}) is missing its `endmodule`",
          .note s!"instantiations from here on are attributed to `{inner.text}`"] }
  redefined ++ unclosed

theorem Source.diagnostics_extract (s : Source) :
    s.extract.diagnostics s = s.warningsByPosition := by
  show (Scan.redefinitions s.tokens ++ Scan.unclosedModules _ s.tokens).map (·.diagnostic s) = _
  rw [Scan.redefinitions_eq_filterMap, Scan.unclosedModules_eq_filterMap, List.map_append,
    List.map_filterMap, List.map_filterMap]
  simp only [Option.map_map]
  rfl

/-! ### Silence -/

theorem Extraction.warnings_eq_nil_iff {ts : List Token} {h : Hierarchy} :
    (ofTokens ts h).warnings = [] ↔
      ((Scan.declarations ts).map Token.text).Nodup ∧
        ∀ i j outer inner, i < j → Scan.event? ts i = some (.opening outer) →
          Scan.event? ts j = some (.opening inner) →
          ∃ k, i < k ∧ k < j ∧ ts[k]?.any (·.text == "endmodule") = true := by
  simp only [← Scan.event?_eq_closing_iff]
  rw [← Scan.redefinitions_eq_nil_iff, ← Scan.unclosedModules_eq_nil_iff]
  exact List.append_eq_nil_iff

namespace Scan

/-- **What the second pass warns of, and when nothing is warned of.**  Whatever the definitions are,
the second pass warns, in order, of each module that starts where the last event before it has
started another one, at the line of its name, and says at which line the other one is named.  A
source has no diagnostic if and only if the names that the first pass declares differ from each
other and between any two starts of modules stands an `endmodule`. -/
theorem warnings_of_nested_starts :
    (∀ (defs : List String) (ts : List Token) (source : Source),
      (unclosedModules defs ts).map (·.diagnostic source) =
        (List.range ts.length).filterMap fun i =>
          (reopenedAt? ts i).map fun (outer, inner) =>
            { severity := .warning
              message := s!"module `{inner.text}` starts before module `{outer.text}` is closed"
              segments := [.location ⟨source, inner.line⟩,
                .note s!"`{outer.text}` (line {outer.line}) is missing its `endmodule`",
                .note s!"instantiations from here on are attributed to `{inner.text}`"] }) ∧
    ∀ s : Source, s.extract.diagnostics s = [] ↔
      ((declarations s.tokens).map Token.text).Nodup ∧
        ∀ i j outer inner, i < j → event? s.tokens i = some (.opening outer) →
          event? s.tokens j = some (.opening inner) →
          ∃ k, i < k ∧ k < j ∧ s.tokens[k]?.any (·.text == "endmodule") = true := by
  refine ⟨fun defs ts source => ?_, fun s => ?_⟩
  · rw [unclosedModules_eq_filterMap, List.map_filterMap]
    refine List.filterMap_congr fun i _ => ?_
    rw [Option.map_map]
    rfl
  · rw [Extraction.diagnostics, List.map_eq_nil_iff]
    exact Extraction.warnings_eq_nil_iff

-- a `module` without a name of its own closes nothing and starts nothing
example :
    Extraction.diagnostics ⟨"top.sv", ""⟩ (.ofTokens (Token.ofText
      "module a; module 1; endmodule module b;".toList) ∅) = [] := by decide +kernel

end Scan

end ModuleHierarchy
