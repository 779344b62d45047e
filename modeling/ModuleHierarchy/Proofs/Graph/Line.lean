/-
ModuleHierarchy/Proofs/Graph/Line.lean

Reading the lines of a DOT text back.  A label can be undone character by character, so that
names with the same label are equal (`label_injective`), and no label breaks its line.  A number
ends at the blank behind it (`toDigits_append_blank_inj`).  So the line of a node and the line of an
edge tell what they were written for (`nodeLine_inj`, `edgeLine_inj`), and no line is both
(`nodeLine_ne_edgeLine`).
-/
import Mathlib.Data.List.TakeWhile
import ModuleHierarchy.Graph.Dot

namespace ModuleHierarchy.Graph

variable {i j : Nat} {name other : String} {e f : Edge} {s t : List Char}

/-! ### Labels -/

/-- The characters that a label stands for. -/
def unlabel : List Char → List Char
  | '\\' :: 'l' :: s => '\n' :: unlabel s
  | '\\' :: c :: s => c :: unlabel s
  | c :: s => c :: unlabel s
  | [] => []

theorem unlabel_labelChar_append (c : Char) (s : List Char) :
    unlabel (labelChar c ++ s) = c :: unlabel s := by
  rw [labelChar]
  split
  · next hc =>
    subst hc
    rfl
  · split
    · next hc =>
      rcases hc with rfl | rfl
      · rfl
      · rfl
    · next hc =>
      have hplain : c ≠ '\\' := fun h => hc (.inr h)
      rw [List.singleton_append, unlabel]
      · rintro _ rfl
        exact absurd rfl hplain
      · rintro _ _ rfl
        exact absurd rfl hplain

theorem unlabel_flatMap_labelChar (s : List Char) : unlabel (s.flatMap labelChar) = s := by
  induction s with
  | nil => rfl
  | cons c s ih => rw [List.flatMap_cons, unlabel_labelChar_append, ih]

theorem label_injective : Function.Injective label := by
  intro a b h
  have hchars := congrArg (fun l => unlabel l.toList) h
  simp only [label, String.toList_ofList, unlabel_flatMap_labelChar] at hchars
  exact String.toList_inj.1 hchars

theorem newline_notMem_labelChar (c : Char) : '\n' ∉ labelChar c := by
  rw [labelChar]
  split
  · decide
  · next hc =>
    split
    · next hesc =>
      rcases hesc with rfl | rfl
      · decide
      · decide
    · exact fun h => hc (List.mem_singleton.1 h).symm

theorem newline_notMem_label (name : String) : '\n' ∉ (label name).toList := by
  rw [label, String.toList_ofList, List.mem_flatMap]
  rintro ⟨c, -, hc⟩
  exact newline_notMem_labelChar c hc

/-! ### Numbers -/

theorem newline_notMem_toDigits (i : Nat) : '\n' ∉ Nat.toDigits 10 i :=
  fun h => absurd (Nat.isDigit_of_mem_toDigits (by decide) (by decide) h) (by decide)

theorem takeWhile_toDigits_append (i : Nat) (s : List Char) :
    (Nat.toDigits 10 i ++ ' ' :: s).takeWhile Char.isDigit = Nat.toDigits 10 i := by
  rw [List.takeWhile_append_of_pos fun _ hc =>
    Nat.isDigit_of_mem_toDigits (by decide) (by decide) hc]
  exact List.append_nil _

/-- A number ends at the blank behind it. -/
theorem toDigits_append_blank_inj
    (h : Nat.toDigits 10 i ++ ' ' :: s = Nat.toDigits 10 j ++ ' ' :: t) : i = j ∧ s = t := by
  have hdigits := congrArg (List.takeWhile Char.isDigit) h
  rw [takeWhile_toDigits_append, takeWhile_toDigits_append] at hdigits
  rw [hdigits, List.append_cancel_left_eq] at h
  refine ⟨?_, (List.cons.inj h).2⟩
  calc i = Nat.ofDigitChars 10 (Nat.toDigits 10 i) 0 := Nat.ofDigitChars_ten_toDigits.symm
    _ = Nat.ofDigitChars 10 (Nat.toDigits 10 j) 0 := by rw [hdigits]
    _ = j := Nat.ofDigitChars_ten_toDigits

/-! ### Lines -/

theorem toList_nodeLine (i : Nat) (name : String) :
    (nodeLine i name).toList = "    ".toList ++ (Nat.toDigits 10 i ++
      ' ' :: ("[ label = \"".toList ++ ((label name).toList ++ "\" ]".toList))) := by
  simp [nodeLine, toString]

theorem toList_edgeLine (e : Edge) :
    (edgeLine e).toList = "    ".toList ++ (Nat.toDigits 10 e.source ++
      ' ' :: ("-> ".toList ++ (Nat.toDigits 10 e.target ++ ' ' :: "[ ]".toList))) := by
  simp [edgeLine, toString]

theorem nodeLine_inj (h : nodeLine i name = nodeLine j other) : i = j ∧ name = other := by
  have hchars := congrArg String.toList h
  rw [toList_nodeLine, toList_nodeLine, List.append_cancel_left_eq] at hchars
  obtain ⟨hi, hrest⟩ := toDigits_append_blank_inj hchars
  rw [List.append_cancel_left_eq, List.append_cancel_right_eq] at hrest
  exact ⟨hi, label_injective (String.toList_inj.1 hrest)⟩

theorem edgeLine_inj (h : edgeLine e = edgeLine f) : e = f := by
  have hchars := congrArg String.toList h
  rw [toList_edgeLine, toList_edgeLine, List.append_cancel_left_eq] at hchars
  obtain ⟨hsource, hrest⟩ := toDigits_append_blank_inj hchars
  rw [List.append_cancel_left_eq] at hrest
  obtain ⟨htarget, -⟩ := toDigits_append_blank_inj hrest
  calc e = ⟨e.source, e.target⟩ := rfl
    _ = ⟨f.source, f.target⟩ := by rw [hsource, htarget]
    _ = f := rfl

/-- Behind the number, a node goes on with a bracket and an edge with an arrow. -/
theorem nodeLine_ne_edgeLine (i : Nat) (name : String) (e : Edge) :
    nodeLine i name ≠ edgeLine e := by
  intro h
  have hchars := congrArg String.toList h
  rw [toList_nodeLine, toList_edgeLine, List.append_cancel_left_eq] at hchars
  obtain ⟨-, hrest⟩ := toDigits_append_blank_inj hchars
  have hhead : some '[' = some '-' := congrArg List.head? hrest
  exact absurd hhead (by decide)

theorem newline_notMem_nodeLine (i : Nat) (name : String) : '\n' ∉ (nodeLine i name).toList := by
  rw [toList_nodeLine]
  simp [newline_notMem_toDigits, newline_notMem_label]

theorem newline_notMem_edgeLine (e : Edge) : '\n' ∉ (edgeLine e).toList := by
  rw [toList_edgeLine]
  simp [newline_notMem_toDigits]

end ModuleHierarchy.Graph
