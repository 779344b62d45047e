/-
ModuleHierarchy/Proofs/Text/Solid.lean

Texts without blank characters.  What a step does to the blanks of a text cannot be seen in its
solid sublists: a solid sublist of a text that had characters turned into blanks is one of the
text itself (`Solid.sublist_of_map`), and it stays one if blanks are dropped from the end
(`Solid.sublist_dropTrailing`).

A class of characters is compared with the list of all blank characters, so that the comparison
is a finite one (`isBlank_eq_false_of_class`).
-/
import Mathlib.Data.List.TakeWhile
import ModuleHierarchy.Text.Class

namespace ModuleHierarchy.Text

variable {s w : List Char}

/-! ### Blank characters -/

/-- The code points of the blank characters. -/
def blankCodes : List Nat :=
  [0x9, 0xA, 0xB, 0xC, 0xD, 0x20, 0x85, 0xA0, 0x1680, 0x2000, 0x2001, 0x2002, 0x2003, 0x2004,
    0x2005, 0x2006, 0x2007, 0x2008, 0x2009, 0x200A, 0x2028, 0x2029, 0x202F, 0x205F, 0x3000]

theorem mem_blankCodes {c : Char} (h : isBlank c = true) : c.toNat ∈ blankCodes := by
  simp only [isBlank, Bool.or_eq_true, Bool.and_eq_true, decide_eq_true_eq, beq_iff_eq] at h
  simp only [blankCodes, List.mem_cons, List.not_mem_nil, or_false]
  omega

/-- A class of characters without a blank member. -/
theorem isBlank_eq_false_of_class {p : Char → Bool} {c : Char}
    (hp : (blankCodes.map Char.ofNat).all (fun b => !p b) = true) (hc : p c = true) :
    isBlank c = false := by
  by_contra hblank
  have hcode : c.toNat ∈ blankCodes := mem_blankCodes (by simpa using hblank)
  have hmem : c ∈ blankCodes.map Char.ofNat := List.mem_map.2 ⟨c.toNat, hcode, c.ofNat_toNat⟩
  have hnot := List.all_eq_true.1 hp c hmem
  rw [hc] at hnot
  cases hnot

/-! ### Ends of texts -/

/-- What is dropped from the end of a text meets the test. -/
theorem exists_dropTrailing_append (p : Char → Bool) (s : List Char) :
    ∃ r, s = dropTrailing p s ++ r ∧ ∀ c ∈ r, p c = true := by
  refine ⟨(s.reverse.takeWhile p).reverse, ?_, ?_⟩
  · rw [dropTrailing, ← List.reverse_append, List.takeWhile_append_dropWhile, List.reverse_reverse]
  · intro c hc
    exact List.mem_takeWhile_imp (List.mem_reverse.1 hc)

/-- What is left does not end in what is dropped. -/
theorem getLast?_dropTrailing_ne (c : Char) (s : List Char) :
    (dropTrailing (· == c) s).getLast? ≠ some c := by
  rw [dropTrailing, List.getLast?_reverse]
  intro h
  have hnot := List.head?_dropWhile_not (· == c) s.reverse
  rw [h] at hnot
  simp at hnot

theorem exists_dropTrailing_append_replicate (c : Char) (s : List Char) :
    ∃ n, s = dropTrailing (· == c) s ++ List.replicate n c := by
  obtain ⟨r, hr, hdropped⟩ := exists_dropTrailing_append (· == c) s
  have hsame : r = List.replicate r.length c :=
    List.eq_replicate_of_mem fun d hd => eq_of_beq (hdropped d hd)
  rw [hsame] at hr
  exact ⟨r.length, hr⟩

theorem trim_sublist (s : List Char) : (trim s).Sublist s := by
  obtain ⟨r, hr, -⟩ := exists_dropTrailing_append isBlank (s.dropWhile isBlank)
  have hend : (trim s).Sublist (s.dropWhile isBlank) := by
    have h := List.sublist_append_left (trim s) r
    rwa [trim, ← hr] at h
  exact hend.trans (List.dropWhile_sublist isBlank)

/-- A text without a blank at either end is left as it is. -/
theorem trim_eq_self (hhead : s.head?.any isBlank = false)
    (hlast : s.getLast?.any isBlank = false) : trim s = s := by
  have hkeep {t : List Char} (ht : t.head?.any isBlank = false) : t.dropWhile isBlank = t := by
    cases t with
    | nil => rfl
    | cons c t => exact List.dropWhile_cons_of_neg (Bool.eq_false_iff.1 ht)
  rw [← List.head?_reverse] at hlast
  rw [trim, hkeep hhead, dropTrailing, hkeep hlast, List.reverse_reverse]

/-! ### Solid texts -/

/-- None of the characters is blank. -/
def Solid (w : List Char) : Prop :=
  ∀ c ∈ w, isBlank c = false

instance (w : List Char) : Decidable (Solid w) :=
  -- along the list: an instance found for the quantifier alone may go through all characters
  List.decidableBAll _ w

/-- A solid sublist of a text lies in what is left of the text without its blanks. -/
theorem Solid.sublist_filter (hw : Solid w) (h : w.Sublist s) :
    w.Sublist (s.filter fun c => !isBlank c) := by
  have hall : w.filter (fun c => !isBlank c) = w := by
    refine List.filter_eq_self.2 fun c hc => ?_
    rw [hw c hc]
    rfl
  rw [← hall]
  exact h.filter _

/-- Turning characters into blanks makes no new solid sublist. -/
theorem Solid.sublist_of_map {f : Char → Char} (hf : ∀ c, f c = c ∨ isBlank (f c) = true)
    (hw : Solid w) (h : w.Sublist (s.map f)) : w.Sublist s := by
  refine (hw.sublist_filter h).trans ?_
  clear h
  induction s with
  | nil => exact List.Sublist.refl _
  | cons c s ih =>
    rw [List.map_cons]
    rcases hf c with hc | hc
    · rw [hc, List.filter_cons]
      split
      · exact ih.cons_cons c
      · exact ih.cons c
    · rw [List.filter_cons_of_neg (by simpa using hc)]
      exact ih.cons c

/-- Dropping blanks from the end of a text loses no solid sublist. -/
theorem Solid.sublist_dropTrailing {p : Char → Bool} (hp : ∀ c, p c = true → isBlank c = true)
    (hw : Solid w) (h : w.Sublist s) : w.Sublist (dropTrailing p s) := by
  obtain ⟨r, hr, hblank⟩ := exists_dropTrailing_append p s
  have hnil : r.filter (fun c => !isBlank c) = [] := by
    refine List.filter_eq_nil_iff.2 fun c hc => ?_
    simp [hp c (hblank c hc)]
  have hfilter := hw.sublist_filter h
  rw [hr, List.filter_append, hnil, List.append_nil] at hfilter
  exact hfilter.trans List.filter_sublist

end ModuleHierarchy.Text
