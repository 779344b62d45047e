/-
ModuleHierarchy/Proofs/Text/Longest.lean

Languages of texts, and the longest prefix of a text that belongs to one.  A class of characters
stands for its texts of one character (`oneOf`), and further languages are made of these by the
operations on languages: `someOf p` is `oneOf p * (oneOf p)∗`.

`Longest L s w` says of the prefix `w` of `s` that it belongs to `L`, and that the prefixes of `s`
in `L` are all prefixes of it.  Nothing is said of how it is found.  For the characters of a class it
is the run of them that the text starts with:

    Longest (oneOf p)∗ s w ↔ s.takeWhile p = w                     (`longest_kstar_oneOf_iff`).
-/
import Mathlib.Computability.Language
import Mathlib.Data.List.TakeWhile

namespace ModuleHierarchy.Text

open scoped Computability

variable {L : Language Char} {p : Char → Bool} {s v w : List Char}

/-! ### Classes of characters -/

/-- The texts of one character of the class. -/
def oneOf (p : Char → Bool) : Language Char :=
  {w | ∃ c, p c = true ∧ w = [c]}

/-- The texts of one or more characters of the class. -/
def someOf (p : Char → Bool) : Language Char :=
  oneOf p * (oneOf p)∗

theorem singleton_mem_oneOf {c : Char} (hc : p c = true) : [c] ∈ oneOf p :=
  ⟨c, hc, rfl⟩

theorem mem_kstar_oneOf_iff : w ∈ (oneOf p)∗ ↔ w.all p = true := by
  rw [Language.mem_kstar, List.all_eq_true]
  constructor
  · rintro ⟨parts, rfl, hparts⟩ c hc
    obtain ⟨part, hpart, hmem⟩ := List.mem_flatten.1 hc
    obtain ⟨d, hd, rfl⟩ := hparts part hpart
    rwa [List.mem_singleton.1 hmem]
  · intro hw
    refine ⟨w.map fun c => [c], ?_, fun part hpart => ?_⟩
    · rw [← List.flatMap_def, List.flatMap_singleton']
    · obtain ⟨c, hc, rfl⟩ := List.mem_map.1 hpart
      exact singleton_mem_oneOf (hw c hc)

theorem mem_someOf_iff : w ∈ someOf p ↔ w ≠ [] ∧ w.all p = true := by
  rw [someOf, Language.mem_mul]
  constructor
  · rintro ⟨v, ⟨c, hc, rfl⟩, t, ht, rfl⟩
    refine ⟨List.cons_ne_nil c t, ?_⟩
    rw [List.singleton_append, List.all_cons, hc, mem_kstar_oneOf_iff.1 ht, Bool.true_and]
  · rintro ⟨hne, hw⟩
    obtain ⟨c, t, rfl⟩ := List.exists_cons_of_ne_nil hne
    rw [List.all_cons, Bool.and_eq_true] at hw
    exact ⟨[c], singleton_mem_oneOf hw.1, t, mem_kstar_oneOf_iff.2 hw.2, rfl⟩

/-! ### Longest prefixes -/

/-- The text starts with `w`, which belongs to the language, and with nothing longer that does. -/
structure Longest (L : Language Char) (s w : List Char) : Prop where
  mem : w ∈ L
  isPrefix : w <+: s
  longest : ∀ v, v <+: s → v ∈ L → v <+: w

theorem Longest.unique (hv : Longest L s v) (hw : Longest L s w) : v = w := by
  have hle : v <+: w := hw.longest v hv.isPrefix hv.mem
  have hge : w <+: v := hv.longest w hw.isPrefix hw.mem
  exact hle.eq_of_length_le hge.length_le

/-- A prefix of characters of a class lies within the run that the text starts with. -/
theorem isPrefix_takeWhile (hv : v.all p = true) (h : v <+: s) : v <+: s.takeWhile p := by
  obtain ⟨rest, rfl⟩ := h
  rw [List.takeWhile_append_of_pos (List.all_eq_true.1 hv)]
  exact List.prefix_append _ _

theorem longest_kstar_oneOf (p : Char → Bool) (s : List Char) :
    Longest (oneOf p)∗ s (s.takeWhile p) where
  mem := mem_kstar_oneOf_iff.2 List.all_takeWhile
  isPrefix := List.takeWhile_prefix p
  longest _ h hv := isPrefix_takeWhile (mem_kstar_oneOf_iff.1 hv) h

theorem longest_kstar_oneOf_iff : Longest (oneOf p)∗ s w ↔ s.takeWhile p = w := by
  constructor
  · exact (longest_kstar_oneOf p s).unique
  · rintro rfl
    exact longest_kstar_oneOf p s

end ModuleHierarchy.Text
