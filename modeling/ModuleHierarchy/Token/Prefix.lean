/-
ModuleHierarchy/Token/Prefix.lean

A lexeme is spelled by the characters that the text starts with, at least one of them.

For each kind of token a lemma `…_eq_some` says what the function for that kind takes when it
answers.  `next?_isPrefix` and `next?_ne_nil` follow from these for the lexeme that is taken.
This is why the walk over a text gets ahead at every step and uses no character twice.
-/
import ModuleHierarchy.Token.Lexeme

namespace ModuleHierarchy.Lexeme
open Text

variable {prev : Option Char} {s w : List Char} {l : Lexeme}

/-! ### What each kind takes -/

/-- A word is taken from the front of the text, and it is in the table. -/
theorem tableWord?_eq_some {table : List (List Char)} (h : tableWord? table prev s = some w) :
    w ∈ table ∧ w <+: s := by
  unfold tableWord? at h
  split at h
  · cases h
  · refine ⟨List.mem_of_find?_eq_some h, ?_⟩
    have hw := List.find?_some h
    exact List.isPrefixOf_iff_prefix.1 (Bool.and_eq_true_iff.1 hw).1

theorem paramOpen?_eq_some (h : paramOpen? s = some w) :
    w = ['#', '('] ∧ ∃ t, s = '#' :: '(' :: t := by
  unfold paramOpen? at h
  split at h
  · exact ⟨(Option.some.inj h).symm, _, rfl⟩
  · cases h

theorem ident?_eq_some (h : ident? s = some w) :
    ∃ c t, s = c :: t ∧ isNameStart c = true ∧ w = c :: t.takeWhile isNameChar := by
  unfold ident? at h
  split at h
  · next c t =>
    split at h
    · next hc => exact ⟨c, t, rfl, hc, (Option.some.inj h).symm⟩
    · cases h
  · cases h

theorem baseAndValue?_eq_some (h : baseAndValue? s = some w) :
    ∃ c t, s = c :: t ∧ isBaseLetter c = true ∧ t.head?.any isValueChar = true ∧
      w = c :: t.takeWhile isValueChar := by
  unfold baseAndValue? at h
  split at h
  · next c t =>
    split at h
    · next hc =>
      obtain ⟨hbase, hvalue⟩ := Bool.and_eq_true_iff.1 hc
      exact ⟨c, t, rfl, hbase, hvalue, (Option.some.inj h).symm⟩
    · cases h
  · cases h

theorem sizedTail?_eq_some (h : sizedTail? s = some w) :
    (∃ t v, s = '\x27' :: t ∧ baseAndValue? t = some v ∧ w = '\x27' :: v) ∨
      baseAndValue? s = some w := by
  unfold sizedTail? at h
  split at h
  · next t =>
    obtain ⟨v, hv, rfl⟩ := Option.map_eq_some_iff.1 h
    exact .inl ⟨t, v, rfl, hv, rfl⟩
  · exact .inr h

theorem number?_eq_some (h : number? s = some w) :
    s.takeWhile isDecimalDigit ≠ [] ∧
      w = s.takeWhile isDecimalDigit ++ (sizedTail? (s.dropWhile isDecimalDigit)).getD [] := by
  unfold number? at h
  split at h
  · cases h
  · next hd => exact ⟨hd, (Option.some.inj h).symm⟩

theorem marked?_eq_some (h : marked? s = some w) :
    (∃ c t, s = '\x27' :: c :: t ∧ isWordChar c = true ∧ w = ['\x27', c]) ∨
      ∃ t, s = '\x60' :: t ∧ t.head?.any isWordChar = true ∧
        w = '\x60' :: t.takeWhile isWordChar := by
  unfold marked? at h
  split at h
  · next c t =>
    split at h
    · next hc => exact .inl ⟨c, t, rfl, hc, (Option.some.inj h).symm⟩
    · cases h
  · next t =>
    split at h
    · next ht => exact .inr ⟨t, rfl, ht, (Option.some.inj h).symm⟩
    · cases h
  · cases h

theorem symbol?_eq_some (h : symbol? s = some w) :
    (∃ c t, s = c :: t ∧ c ∈ punctuation ∧ w = [c]) ∨ (w ∈ operators ∧ w <+: s) ∨
      marked? s = some w := by
  unfold symbol? at h
  split at h
  · next c t =>
    split at h
    · next hc => exact .inl ⟨c, t, rfl, hc, (Option.some.inj h).symm⟩
    · rcases Option.or_eq_some_iff.1 h with h | ⟨_, h⟩
      · have hw := List.find?_some h
        exact .inr (.inl ⟨List.mem_of_find?_eq_some h, List.isPrefixOf_iff_prefix.1 hw⟩)
      · exact .inr (.inr h)
  · cases h

/-- What the function for a kind of token answers. -/
def ofKind? (prev : Option Char) (s : List Char) : Token.Kind → Option (List Char)
  | .keyword => keyword? prev s
  | .paramOpen => paramOpen? s
  | .ident => ident? s
  | .number => number? s
  | .symbol => symbol? s

/-- A lexeme is the answer of the function for its kind. -/
theorem ofKind?_of_next? (h : next? prev s = some l) :
    ofKind? prev s l.kind = some l.spelling := by
  simp only [next?, Option.or_eq_some_iff, Option.map_eq_some_iff] at h
  rcases h with ⟨w, hw, rfl⟩ | ⟨_, h⟩
  · exact hw
  rcases h with ⟨w, hw, rfl⟩ | ⟨_, h⟩
  · exact hw
  rcases h with ⟨w, hw, rfl⟩ | ⟨_, h⟩
  · exact hw
  rcases h with ⟨w, hw, rfl⟩ | ⟨_, ⟨w, hw, rfl⟩⟩
  · exact hw
  · exact hw

/-! ### A front of the text -/

theorem paramOpen?_isPrefix (h : paramOpen? s = some w) : w <+: s := by
  obtain ⟨rfl, t, rfl⟩ := paramOpen?_eq_some h
  exact ⟨t, rfl⟩

theorem ident?_isPrefix (h : ident? s = some w) : w <+: s := by
  obtain ⟨c, t, rfl, -, rfl⟩ := ident?_eq_some h
  exact (List.prefix_cons_inj c).2 (List.takeWhile_prefix _)

theorem baseAndValue?_isPrefix (h : baseAndValue? s = some w) : w <+: s := by
  obtain ⟨c, t, rfl, -, -, rfl⟩ := baseAndValue?_eq_some h
  exact (List.prefix_cons_inj c).2 (List.takeWhile_prefix _)

theorem sizedTail?_isPrefix (h : sizedTail? s = some w) : w <+: s := by
  rcases sizedTail?_eq_some h with ⟨t, v, rfl, hv, rfl⟩ | h
  · exact (List.prefix_cons_inj _).2 (baseAndValue?_isPrefix hv)
  · exact baseAndValue?_isPrefix h

theorem number?_isPrefix (h : number? s = some w) : w <+: s := by
  obtain ⟨-, rfl⟩ := number?_eq_some h
  have hs := List.takeWhile_append_dropWhile (p := isDecimalDigit) (l := s)
  conv => rhs; rw [← hs]
  refine (List.prefix_append_right_inj _).2 ?_
  cases ht : sizedTail? (s.dropWhile isDecimalDigit) with
  | none => exact List.nil_prefix
  | some v => exact sizedTail?_isPrefix ht

theorem marked?_isPrefix (h : marked? s = some w) : w <+: s := by
  rcases marked?_eq_some h with ⟨c, t, rfl, -, rfl⟩ | ⟨t, rfl, -, rfl⟩
  · exact ⟨t, rfl⟩
  · exact (List.prefix_cons_inj _).2 (List.takeWhile_prefix _)

theorem symbol?_isPrefix (h : symbol? s = some w) : w <+: s := by
  rcases symbol?_eq_some h with ⟨c, t, rfl, -, rfl⟩ | ⟨-, hw⟩ | h
  · exact ⟨t, rfl⟩
  · exact hw
  · exact marked?_isPrefix h

theorem ofKind?_isPrefix {k : Token.Kind} (h : ofKind? prev s k = some w) : w <+: s := by
  cases k with
  | keyword => exact (tableWord?_eq_some h).2
  | paramOpen => exact paramOpen?_isPrefix h
  | ident => exact ident?_isPrefix h
  | number => exact number?_isPrefix h
  | symbol => exact symbol?_isPrefix h

theorem next?_isPrefix (h : next? prev s = some l) : l.spelling <+: s :=
  ofKind?_isPrefix (ofKind?_of_next? h)

/-! ### At least one character -/

theorem keyword?_ne_nil (h : keyword? prev s = some w) : w ≠ [] := fun hw => by
  have hmem := (tableWord?_eq_some h).1
  rw [hw] at hmem
  exact absurd hmem (by decide)

theorem paramOpen?_ne_nil (h : paramOpen? s = some w) : w ≠ [] := by
  obtain ⟨rfl, -⟩ := paramOpen?_eq_some h
  exact List.cons_ne_nil _ _

theorem ident?_ne_nil (h : ident? s = some w) : w ≠ [] := by
  obtain ⟨c, t, -, -, rfl⟩ := ident?_eq_some h
  exact List.cons_ne_nil _ _

theorem number?_ne_nil (h : number? s = some w) : w ≠ [] := by
  obtain ⟨hd, rfl⟩ := number?_eq_some h
  exact List.append_ne_nil_of_left_ne_nil hd _

theorem marked?_ne_nil (h : marked? s = some w) : w ≠ [] := by
  rcases marked?_eq_some h with ⟨c, t, -, -, rfl⟩ | ⟨t, -, -, rfl⟩
  · exact List.cons_ne_nil _ _
  · exact List.cons_ne_nil _ _

theorem symbol?_ne_nil (h : symbol? s = some w) : w ≠ [] := by
  rcases symbol?_eq_some h with ⟨c, t, -, -, rfl⟩ | ⟨hw, -⟩ | h
  · exact List.cons_ne_nil _ _
  · rintro rfl
    exact absurd hw (by decide)
  · exact marked?_ne_nil h

theorem ofKind?_ne_nil {k : Token.Kind} (h : ofKind? prev s k = some w) : w ≠ [] := by
  cases k with
  | keyword => exact keyword?_ne_nil h
  | paramOpen => exact paramOpen?_ne_nil h
  | ident => exact ident?_ne_nil h
  | number => exact number?_ne_nil h
  | symbol => exact symbol?_ne_nil h

theorem next?_ne_nil (h : next? prev s = some l) : l.spelling ≠ [] :=
  ofKind?_ne_nil (ofKind?_of_next? h)

/-- The spelling goes on with as many of the characters ahead as it is long. -/
theorem next?_spelling_eq_cons {c : Char} (h : next? prev (c :: s) = some l) :
    l.spelling = c :: s.take (l.spelling.length - 1) := by
  have hpos : 0 < l.spelling.length := List.length_pos_iff.2 (next?_ne_nil h)
  have htake := List.prefix_iff_eq_take.1 (next?_isPrefix h)
  rwa [← Nat.succ_pred_eq_of_pos hpos, List.take_succ_cons] at htake

end ModuleHierarchy.Lexeme
