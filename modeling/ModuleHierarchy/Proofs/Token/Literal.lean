/-
ModuleHierarchy/Proofs/Token/Literal.lean

Number literals as languages.  There are two of them, of which the first is preferred:

    sizedNumbers = plainNumbers * ((1 + {['\x27']}) * (oneOf isBaseLetter * someOf isValueChar))
    plainNumbers = someOf isDecimalDigit

A text may start with a literal of a language in many ways, with fewer digits, without the apostrophe
or with a shorter value.  The function for numbers tries one of them and never comes back to another.
That is enough: neither an apostrophe nor a base letter is a digit, so a sized literal at the front of
a text has all the digits there, and it goes on as the function does (`exists_number?_of_sized`).
Hence the answer is the longest prefix in the language (`longest_sizedNumbers`), or the longest one in
the other if there is none (`longest_plainNumbers`).
-/
import ModuleHierarchy.Proofs.Text.Longest
import ModuleHierarchy.Proofs.Token.Language
import ModuleHierarchy.Proofs.Token.Slice

namespace ModuleHierarchy.Lexeme

open Text
open scoped Computability

variable {s v w : List Char}

/-! ### The languages -/

/-- One or more decimal digits (`isDecimalDigit`). -/
def plainNumbers : Language Char :=
  someOf isDecimalDigit

/-- Digits, an apostrophe that may be missing, a base letter and one or more characters of a value. -/
def sizedNumbers : Language Char :=
  plainNumbers * ((1 + {['\x27']}) * (oneOf isBaseLetter * someOf isValueChar))

theorem mem_plainNumbers_iff : w ∈ plainNumbers ↔ w ≠ [] ∧ w.all isDecimalDigit = true :=
  mem_someOf_iff

theorem mem_sizedNumbers_iff :
    w ∈ sizedNumbers ↔ ∃ ds mark base value, ds ∈ plainNumbers ∧
      (mark = [] ∨ mark = ['\x27']) ∧ isBaseLetter base = true ∧ value ∈ someOf isValueChar ∧
        w = ds ++ (mark ++ base :: value) := by
  simp only [sizedNumbers, Language.mem_mul]
  constructor
  · rintro ⟨ds, hds, _, ⟨mark, hmark, _, ⟨_, ⟨base, hbase, rfl⟩, value, hvalue, rfl⟩, rfl⟩, rfl⟩
    exact ⟨ds, mark, base, value, hds, hmark, hbase, hvalue, rfl⟩
  · rintro ⟨ds, mark, base, value, hds, hmark, hbase, hvalue, rfl⟩
    exact ⟨ds, hds, _, ⟨mark, hmark, _, ⟨[base], singleton_mem_oneOf hbase, value, hvalue, rfl⟩, rfl⟩,
      rfl⟩

/-- The canonical spellings of numbers are the members of both languages. -/
theorem canonical_number_iff :
    Canonical .number w ↔ w ∈ sizedNumbers ∨ w ∈ plainNumbers := by
  constructor
  · intro h
    cases h with
    | plainNumber hne hds => exact .inr (mem_plainNumbers_iff.2 ⟨hne, hds⟩)
    | @sizedNumber ds mark value base hne hds hmark hbase hvalue hvalues =>
      exact .inl (mem_sizedNumbers_iff.2 ⟨ds, mark, base, value, mem_plainNumbers_iff.2 ⟨hne, hds⟩,
        hmark, hbase, mem_someOf_iff.2 ⟨hvalue, hvalues⟩, rfl⟩)
  · rintro (h | h)
    · obtain ⟨ds, mark, base, value, hds, hmark, hbase, hvalue, rfl⟩ := mem_sizedNumbers_iff.1 h
      obtain ⟨hne, hds⟩ := mem_plainNumbers_iff.1 hds
      obtain ⟨hvalue, hvalues⟩ := mem_someOf_iff.1 hvalue
      exact .sizedNumber hne hds hmark hbase hvalue hvalues
    · obtain ⟨hne, hds⟩ := mem_plainNumbers_iff.1 h
      exact .plainNumber hne hds

theorem any_isBaseLetter_of_mem (h : w ∈ sizedNumbers) : w.any isBaseLetter = true := by
  obtain ⟨ds, mark, base, value, -, -, hbase, -, rfl⟩ := mem_sizedNumbers_iff.1 h
  exact List.any_eq_true.2 ⟨base, by simp, hbase⟩

/-- No literal belongs to both languages. -/
theorem notMem_plainNumbers (h : w ∈ sizedNumbers) : w ∉ plainNumbers := by
  intro hplain
  obtain ⟨c, hc, hbase⟩ := List.any_eq_true.1 (any_isBaseLetter_of_mem h)
  have hdigit := List.all_eq_true.1 (mem_plainNumbers_iff.1 hplain).2 c hc
  rw [isDecimalDigit_eq_false_of_isBaseLetter hbase] at hdigit
  cases hdigit

/-! ### What the text starts with -/

/-- However a sized literal is found at the front of a text, a sized literal is taken, and it is as
long at least. -/
theorem exists_number?_of_sized (hv : v ∈ sizedNumbers) (h : v <+: s) :
    ∃ w, number? s = some w ∧ w ∈ sizedNumbers ∧ v <+: w := by
  obtain ⟨ds, mark, base, value, hds, hmark, hbase, hvalue, rfl⟩ := mem_sizedNumbers_iff.1 hv
  obtain ⟨rest, rfl⟩ := h
  obtain ⟨hne, hdigits⟩ := mem_plainNumbers_iff.1 hds
  obtain ⟨hvalue, hvalues⟩ := mem_someOf_iff.1 hvalue
  -- the run of the value may go on behind this literal
  have hrun : value <+: (value ++ rest).takeWhile isValueChar :=
    isPrefix_takeWhile hvalues (List.prefix_append value rest)
  have hhead : (value ++ rest).head?.any isValueChar = true := by
    obtain ⟨c, t, rfl⟩ := List.exists_cons_of_ne_nil hvalue
    exact List.all_eq_true.1 hvalues c List.mem_cons_self
  have hstop : (mark ++ base :: (value ++ rest)).head?.any isDecimalDigit = false := by
    rcases hmark with rfl | rfl
    · exact isDecimalDigit_eq_false_of_isBaseLetter hbase
    · rfl
  have hnumber := number?_digits_append hne hdigits hstop
  rw [sizedTail?_mark_append hmark hbase hhead, Option.getD_some] at hnumber
  refine ⟨ds ++ (mark ++ base :: (value ++ rest).takeWhile isValueChar), ?_, ?_, ?_⟩
  · rw [← hnumber]
    simp
  · exact mem_sizedNumbers_iff.2 ⟨ds, mark, base, _, hds, hmark, hbase,
      mem_someOf_iff.2 ⟨takeWhile_ne_nil hhead, List.all_takeWhile⟩, rfl⟩
  · rw [List.prefix_append_right_inj, List.prefix_append_right_inj, List.prefix_cons_inj]
    exact hrun

/-- If the text starts with a sized literal, the longest one is taken. -/
theorem longest_sizedNumbers (hv : v ∈ sizedNumbers) (h : v <+: s) :
    ∃ w, number? s = some w ∧ Longest sizedNumbers s w := by
  obtain ⟨w, hw, hmem, -⟩ := exists_number?_of_sized hv h
  refine ⟨w, hw, hmem, number?_isPrefix hw, fun u hu husized => ?_⟩
  obtain ⟨w', hw', -, hle⟩ := exists_number?_of_sized husized hu
  obtain rfl := Option.some.inj (hw.symm.trans hw')
  exact hle

/-- Where no digits are taken there are none. -/
theorem notMem_of_number?_eq_none (h : number? s = none) (hv : v <+: s) : v ∉ plainNumbers := by
  intro hmem
  obtain ⟨hne, hds⟩ := mem_plainNumbers_iff.1 hmem
  obtain ⟨c, t, rfl⟩ := List.exists_cons_of_ne_nil hne
  obtain ⟨rest, rfl⟩ := hv
  have hc : isDecimalDigit c = true := List.all_eq_true.1 hds c List.mem_cons_self
  rw [List.cons_append, number?_eq_none_iff, hc] at h
  cases h

/-- A literal that is taken has all the digits that the text starts with. -/
theorem isPrefix_of_number?_eq_some (h : number? s = some w) (hv : v <+: s)
    (hplain : v ∈ plainNumbers) : v <+: w := by
  obtain ⟨-, rfl⟩ := number?_eq_some h
  have hdigits := isPrefix_takeWhile (mem_plainNumbers_iff.1 hplain).2 hv
  exact hdigits.trans (List.prefix_append _ _)

/-- If the text starts with no sized literal but with a digit, the longest plain one is taken. -/
theorem longest_plainNumbers (hno : ∀ u, u <+: s → u ∉ sizedNumbers) (hv : v ∈ plainNumbers)
    (h : v <+: s) : ∃ w, number? s = some w ∧ Longest plainNumbers s w := by
  cases hw : number? s with
  | none => exact absurd hv (notMem_of_number?_eq_none hw h)
  | some w =>
    have hfront : w <+: s := number?_isPrefix hw
    have hmem := (canonical_number_iff.1 (canonical_of_number? hw)).resolve_left (hno w hfront)
    exact ⟨w, rfl, hmem, hfront, fun u hu huplain => isPrefix_of_number?_eq_some hw hu huplain⟩

theorem number?_eq_none_of_forall (hno : ∀ u, u <+: s → u ∉ sizedNumbers ∧ u ∉ plainNumbers) :
    number? s = none := by
  rw [Option.eq_none_iff_forall_ne_some]
  intro w hw
  obtain ⟨hsized, hplain⟩ := hno w (number?_isPrefix hw)
  rcases canonical_number_iff.1 (canonical_of_number? hw) with hmem | hmem
  · exact hsized hmem
  · exact hplain hmem

/-- **Numbers are the longest literals, sized ones first.**  If a text starts with a sized literal, the
longest of them is taken.  If not, but if it starts with a plain one, the longest of those is taken,
and else nothing is.  The size that is answered is that of the literal.  So where only digits are taken
no prefix is a sized literal, whichever way it is read. -/
theorem numbers_longest_literal (rest : String) :
    numberSize? rest = .ok ((number? rest.toList).map size) ∧
    ((∃ v, v <+: rest.toList ∧ v ∈ sizedNumbers) →
      ∃ w, number? rest.toList = some w ∧ Longest sizedNumbers rest.toList w) ∧
    ((∀ v, v <+: rest.toList → v ∉ sizedNumbers) →
      (∃ v, v <+: rest.toList ∧ v ∈ plainNumbers) →
      ∃ w, number? rest.toList = some w ∧ Longest plainNumbers rest.toList w) ∧
    ((∀ v, v <+: rest.toList → v ∉ sizedNumbers ∧ v ∉ plainNumbers) →
      number? rest.toList = none) ∧
    ∀ w, number? rest.toList = some w → w ∈ plainNumbers →
      ∀ v, v <+: rest.toList → v ∉ sizedNumbers := by
  refine ⟨numberSize?_eq rest, ?_, ?_, number?_eq_none_of_forall, ?_⟩
  · rintro ⟨v, hv, hsized⟩
    exact longest_sizedNumbers hsized hv
  · rintro hno ⟨v, hv, hplain⟩
    exact longest_plainNumbers hno hplain hv
  · intro w hw hplain v hv hsized
    obtain ⟨w', hw', hmem, -⟩ := exists_number?_of_sized hsized hv
    obtain rfl := Option.some.inj (hw.symm.trans hw')
    exact notMem_plainNumbers hmem hplain

/-- Digits of another script with base letters among the characters of the value, and a literal that is
given up behind the apostrophe. -/
theorem numbers_longest_literal_given_up :
    let s := "\u0663'bd_1g".toList
    let s' := "42'o7".toList
    ("\u0663'bd".toList <+: s ∧ "\u0663'bd".toList ∈ sizedNumbers) ∧
      Longest sizedNumbers s "\u0663'bd_1".toList ∧
      numberSize? "\u0663'bd_1g" = .ok (some 7) ∧
      (∀ v, v <+: s' → v ∉ sizedNumbers) ∧ ("4".toList <+: s' ∧ "4".toList ∈ plainNumbers) ∧
      Longest plainNumbers s' "42".toList ∧ number? "x1".toList = none := by
  intro s s'
  obtain ⟨hsize, hsized, -⟩ := numbers_longest_literal "\u0663'bd_1g"
  obtain ⟨-, -, hplain, -⟩ := numbers_longest_literal "42'o7"
  have hnumber : number? s = some "\u0663'bd_1".toList := by decide +kernel
  have hnumber' : number? s' = some "42".toList := by decide +kernel
  have hv : "\u0663'bd".toList <+: s := ⟨"_1g".toList, by decide +kernel⟩
  have hvmem : "\u0663'bd".toList ∈ sizedNumbers :=
    mem_sizedNumbers_iff.2 ⟨['\u0663'], ['\x27'], 'b', ['d'],
      mem_plainNumbers_iff.2 (by decide +kernel), .inr rfl, by decide,
      mem_someOf_iff.2 (by decide), by decide +kernel⟩
  have hno : ∀ v, v <+: s' → v ∉ sizedNumbers := by
    intro v hv hmem
    obtain ⟨c, hc, hbase⟩ := List.any_eq_true.1 (any_isBaseLetter_of_mem hmem)
    have hnone : s'.all (fun d => !isBaseLetter d) = true := by decide +kernel
    have hc' := List.all_eq_true.1 hnone c (hv.subset hc)
    rw [hbase] at hc'
    cases hc'
  have hv' : "4".toList <+: s' := ⟨"2'o7".toList, by decide +kernel⟩
  have hvmem' : "4".toList ∈ plainNumbers := mem_plainNumbers_iff.2 (by decide +kernel)
  refine ⟨⟨hv, hvmem⟩, ?_, ?_, hno, ⟨hv', hvmem'⟩, ?_, by decide +kernel⟩
  · obtain ⟨w, hw, hlongest⟩ := hsized ⟨_, hv, hvmem⟩
    obtain rfl := Option.some.inj (hw.symm.trans hnumber)
    exact hlongest
  · rw [hsize, hnumber]
    rfl
  · obtain ⟨w, hw, hlongest⟩ := hplain hno ⟨_, hv', hvmem'⟩
    obtain rfl := Option.some.inj (hw.symm.trans hnumber')
    exact hlongest

end ModuleHierarchy.Lexeme
