/-
ModuleHierarchy/Proofs/Token/Slice.lean

Lexemes by their sizes.  For each kind of token there is a function that answers how many bytes of
the text belong to the lexeme, and the spelling is cut out afterwards.  The sizes are counted in
different ways: as the size of a word of a table, as the byte index of a character, by adding up
sizes of characters, by counting bytes, or by a mixture of these.

All of them come to the size of the spelling that is found among the characters, and every slice
they take is defined:

    sizeOfKind? k prev rest = .ok ((ofKind? prev rest.toList k).map size)    (`sizeOfKind?_eq`).

So a size is at least 1, at most what is left of the text, and ends on a boundary
(`yields_sizeOfKind?`).
-/
import ModuleHierarchy.Proofs.Text.Slice
import ModuleHierarchy.Proofs.Token.Separator

namespace ModuleHierarchy.Lexeme

open Text

variable {prev : Option Char} {rest : String} {p q s w : List Char}

/-- A run of characters takes up bytes if the first character belongs to it. -/
theorem size_takeWhile_pos_iff {test : Char → Bool} :
    0 < size (s.takeWhile test) ↔ s.head?.any test = true := by
  cases s with
  | nil => exact iff_of_false (Nat.lt_irrefl 0) Bool.false_ne_true
  | cons c s =>
    rw [List.head?_cons, Option.any_some]
    by_cases hc : test c = true
    · rw [List.takeWhile_cons_of_pos hc]
      exact iff_of_true (size_pos (List.cons_ne_nil _ _)) hc
    · rw [List.takeWhile_cons_of_neg hc]
      exact iff_of_false (Nat.lt_irrefl 0) hc

/-! ### Reserved words -/

/-- Whether the text starts with the word and no word character follows it. -/
def standsIn (rest word : String) : Except BadSlice Bool :=
  if startsWith word rest then do
    let behind ← sliceFrom rest word.utf8ByteSize
    return !behind.toList.head?.any isWordChar
  else .ok false

/-- The size of the reserved word the text starts with. -/
def keywordSize? (prev : Option Char) (rest : String) : Except BadSlice (Option Nat) :=
  if prev.any isWordChar then .ok none
  else do
    let word ← (keywords.map String.ofList).findM? (standsIn rest)
    return word.map String.utf8ByteSize

theorem standsIn_eq (rest word : String) :
    standsIn rest word = .ok (word.toList.isPrefixOf rest.toList &&
      !(rest.toList.drop word.toList.length).head?.any isWordChar) := by
  rw [standsIn, startsWith_eq]
  split
  · next h =>
    obtain ⟨t, ht⟩ := List.isPrefixOf_iff_prefix.1 h
    rw [utf8ByteSize_eq_size, sliceFrom_eq ht.symm, ok_bind, h, ← ht, List.drop_left,
      String.toList_ofList, Bool.true_and]
    rfl
  · next h => rw [Bool.eq_false_iff.2 h, Bool.false_and]

theorem keywordSize?_eq (prev : Option Char) (rest : String) :
    keywordSize? prev rest = .ok ((keyword? prev rest.toList).map size) := by
  rw [keywordSize?, keyword?, tableWord?]
  split
  · rfl
  · have hpure : standsIn rest = fun word => pure (word.toList.isPrefixOf rest.toList &&
        !(rest.toList.drop word.toList.length).head?.any isWordChar) :=
      funext (standsIn_eq rest)
    rw [hpure, List.findM?_pure, pure_bind, List.find?_map, Option.map_map]
    simp only [Function.comp_def, String.toList_ofList, utf8ByteSize_ofList]
    rfl

/-! ### Parameter overrides and identifiers -/

/-- The size of the opening of parameter overrides. -/
def paramOpenSize? (rest : String) : Option Nat :=
  if startsWith "#(" rest then some "#(".utf8ByteSize else none

theorem paramOpenSize?_eq (rest : String) :
    paramOpenSize? rest = (paramOpen? rest.toList).map size := by
  rw [paramOpenSize?, startsWith_eq, paramOpen?_eq_ite, apply_ite (Option.map size)]
  rfl

/-- Characters with the byte indices they start at, the first one at `i`. -/
def charIndices (i : Nat) : List Char → List (Nat × Char)
  | [] => []
  | c :: s => (i, c) :: charIndices (i + c.utf8Size) s

/-- The size of the identifier the text starts with. -/
def identSize? (rest : String) : Option Nat :=
  match charIndices 0 rest.toList with
  | [] => none
  | (_, c) :: chars =>
    if isNameStart c then
      some (((chars.find? fun x => !isNameChar x.2).map Prod.fst).getD rest.utf8ByteSize)
    else none

/-- The first character that fails the test stands behind those that meet it. -/
theorem charIndices_find? (test : Char → Bool) (i : Nat) (s : List Char) :
    (((charIndices i s).find? fun x => !test x.2).map Prod.fst).getD (i + size s) =
      i + size (s.takeWhile test) := by
  induction s generalizing i with
  | nil => rfl
  | cons c s ih =>
    rw [charIndices, size_cons, ← Nat.add_assoc]
    cases hc : test c with
    | true =>
      rw [List.find?_cons_of_neg (by simp [hc]), ih, List.takeWhile_cons_of_pos hc, size_cons,
        Nat.add_assoc]
    | false =>
      rw [List.find?_cons_of_pos (by simp [hc]),
        List.takeWhile_cons_of_neg (Bool.eq_false_iff.1 hc)]
      rfl

theorem identSize?_eq (rest : String) : identSize? rest = (ident? rest.toList).map size := by
  rw [identSize?, utf8ByteSize_eq_size]
  cases rest.toList with
  | nil => rfl
  | cons c s =>
    have hfind := charIndices_find? isNameChar (0 + c.utf8Size) s
    rw [ident?, apply_ite (Option.map size), Option.map_some, Option.map_none, size_cons,
      size_cons, ← Nat.zero_add c.utf8Size, ← hfind]
    rfl

/-! ### Numbers -/

/-- The apostrophe as a byte. -/
def isQuoteByte (b : UInt8) : Bool :=
  b == 0x27

/-- The letters that name the base of a sized literal, as bytes. -/
def isBaseByte (b : UInt8) : Bool :=
  (bytes "bdhBHD").contains b

/-- The characters of the value of a sized literal, as bytes. -/
def isValueByte (b : UInt8) : Bool :=
  (0x30 ≤ b && b ≤ 0x39) || (0x41 ≤ b && b ≤ 0x46) || (0x61 ≤ b && b ≤ 0x66) || b == 0x5F

/-- How many bytes of a value stand behind a base letter at the byte index, none if there is no base
letter. -/
def valueSize (rest : String) (radix : Nat) : Except BadSlice Nat :=
  if (bytes rest)[radix]?.any isBaseByte then do
    let behind ← bytesFrom rest (radix + 1)
    return (behind.takeWhile isValueByte).length
  else .ok 0

/-- The size of the number the text starts with. -/
def numberSize? (rest : String) : Except BadSlice (Option Nat) :=
  let digits := size (rest.toList.takeWhile isDecimalDigit)
  if digits = 0 then .ok none
  else do
    let radix := if (bytes rest)[digits]?.any isQuoteByte then digits + 1 else digits
    let body ← valueSize rest radix
    return some (if 0 < body then radix + 1 + body else digits)

theorem asciiTest_quote : AsciiTest isQuoteByte (· == '\x27') where
  agree := by decide
  byte_lt b hb := by
    obtain rfl := beq_iff_eq.1 hb
    decide
  char_lt c hc := by
    obtain rfl := beq_iff_eq.1 hc
    decide

theorem asciiTest_base : AsciiTest isBaseByte isBaseLetter where
  agree := by decide
  byte_lt b hb := by
    have hall : (bytes "bdhBHD").all (·.toNat < 128) = true := by decide
    exact of_decide_eq_true (List.all_eq_true.1 hall b (List.contains_iff_mem.1 hb))
  char_lt c hc := by
    have hall : ['b', 'd', 'h', 'B', 'D', 'H'].all (·.toNat < 128) = true := by decide
    exact of_decide_eq_true (List.all_eq_true.1 hall c (of_decide_eq_true hc))

theorem asciiTest_value : AsciiTest isValueByte isValueChar where
  agree := by decide
  byte_lt b hb := by
    simp only [isValueByte, Bool.or_eq_true, Bool.and_eq_true, decide_eq_true_eq, beq_iff_eq,
      UInt8.le_iff_toNat_le, ← UInt8.toNat_inj] at hb
    simp only [UInt8.reduceToNat] at hb
    omega
  char_lt c hc := by
    have hdigit : c.isDigit = true → c.toNat ≤ 57 := fun h => (Char.isDigit_iff_toNat.1 h).2
    simp only [isValueChar, Bool.or_eq_true, Bool.and_eq_true, decide_eq_true_eq, beq_iff_eq,
      Char.le_def] at hc
    rcases hc with ((hc | hc) | hc) | rfl
    · exact Nat.lt_of_le_of_lt (hdigit hc) (by decide)
    · exact Nat.lt_of_le_of_lt hc.2 (by decide)
    · exact Nat.lt_of_le_of_lt hc.2 (by decide)
    · decide

/-- Behind a base letter there is a value if and only if there are bytes of one. -/
theorem valueSize_eq (h : rest.toList = p ++ q) :
    ∃ n, valueSize rest (size p) = .ok n ∧
      (n = 0 ∧ baseAndValue? q = none ∨ 0 < n ∧ ∃ v, baseAndValue? q = some v ∧ size v = 1 + n) := by
  rw [valueSize, asciiTest_base.any_getElem?_bytes h]
  cases q with
  | nil => exact ⟨0, rfl, .inl ⟨rfl, rfl⟩⟩
  | cons c s =>
    by_cases hc : isBaseLetter c = true
    · have hsize := asciiTest_base.utf8Size_eq_one hc
      have hbehind := bytesFrom_eq (h.trans (List.append_cons p c s))
      rw [size_append, size_cons, size_nil, hsize] at hbehind
      replace hbehind : bytesFrom rest (size p + 1) = .ok (bytes (String.ofList s)) := hbehind
      refine ⟨size (s.takeWhile isValueChar), ?_, ?_⟩
      · rw [List.head?_cons, Option.any_some, if_pos hc, hbehind, ok_bind,
          asciiTest_value.length_takeWhile_bytes]
        rfl
      · simp only [baseAndValue?, hc, Bool.true_and, ← size_takeWhile_pos_iff]
        rcases Nat.eq_zero_or_pos (size (s.takeWhile isValueChar)) with hzero | hpos
        · exact .inl ⟨hzero, by rw [hzero]; rfl⟩
        · exact .inr ⟨hpos, _, if_pos hpos, by rw [size_cons, hsize]⟩
    · -- no slice is taken behind another character, whatever its size
      refine ⟨0, ?_, .inl ⟨rfl, ?_⟩⟩
      · rw [List.head?_cons, Option.any_some, if_neg hc]
      · exact baseAndValue?_eq_none (Bool.eq_false_iff.2 hc)

/-- The base letter is looked for behind the apostrophe, if there is one. -/
theorem exists_quote (p q : List Char) :
    ∃ mark t, q = mark ++ t ∧ sizedTail? q = (baseAndValue? t).map (mark ++ ·) ∧
      size (p ++ mark) = if q.head?.any (· == '\x27') then size p + 1 else size p := by
  cases q with
  | nil => exact ⟨[], [], rfl, rfl, by rw [List.append_nil]; rfl⟩
  | cons c s =>
    by_cases hc : c = '\x27'
    · subst hc
      exact ⟨['\x27'], s, rfl, rfl, size_append _ _⟩
    · refine ⟨[], c :: s, rfl, ?_, ?_⟩
      · rw [sizedTail?_of_ne hc]
        exact Option.map_id_apply.symm
      · rw [List.append_nil, List.head?_cons, Option.any_some, if_neg (by simpa using hc)]

theorem number?_eq_ite (s : List Char) :
    number? s = if s.takeWhile isDecimalDigit = [] then none
      else some (s.takeWhile isDecimalDigit ++
        (sizedTail? (s.dropWhile isDecimalDigit)).getD []) := by
  rw [number?]
  split
  · next hnil => rw [if_pos hnil]
  · next hne => rw [if_neg hne]

theorem numberSize?_eq (rest : String) :
    numberSize? rest = .ok ((number? rest.toList).map size) := by
  have hrest : rest.toList = rest.toList.takeWhile isDecimalDigit ++
      rest.toList.dropWhile isDecimalDigit := List.takeWhile_append_dropWhile.symm
  rw [numberSize?, number?_eq_ite]
  generalize rest.toList.takeWhile isDecimalDigit = digits at hrest ⊢
  generalize rest.toList.dropWhile isDecimalDigit = tail at hrest ⊢
  by_cases hdigits : digits = []
  · subst hdigits
    rfl
  -- the digits may have several bytes each; the base letter is looked for by the sum of their sizes
  obtain ⟨mark, t, rfl, htail, hradix⟩ := exists_quote digits tail
  obtain ⟨n, hn, hcases⟩ := valueSize_eq (hrest.trans (List.append_assoc _ _ _).symm)
  have hpos : size digits ≠ 0 := Nat.ne_of_gt (size_pos hdigits)
  simp only [if_neg hpos, asciiTest_quote.any_getElem?_bytes hrest, ← hradix, hn, ok_bind,
    if_neg hdigits, htail, Option.map_some]
  refine congrArg (fun n => Except.ok (some n)) ?_
  rcases hcases with ⟨rfl, hnone⟩ | ⟨hn, v, hv, hsize⟩
  · rw [hnone, if_neg (Nat.lt_irrefl 0), Option.map_none, Option.getD_none, List.append_nil]
  · rw [hv, if_pos hn, Option.map_some, Option.getD_some, ← List.append_assoc, size_append _ v,
      hsize, Nat.add_assoc]

/-! ### Symbols -/

/-- The size of an apostrophe with a word character, or of a backtick with a word. -/
def markedSize? : List Char → Option Nat
  | [] => none
  | c :: s =>
    if c = '\x27' then (s.head?.filter isWordChar).map fun d => 1 + d.utf8Size
    else if c = '\x60' then
      let len := size (s.takeWhile isWordChar)
      if 0 < len then some (1 + len) else none
    else none

/-- The size of the symbol the text starts with. -/
def symbolSize? (rest : String) : Option Nat :=
  match rest.toList with
  | [] => none
  | c :: s =>
    if c ∈ punctuation then some 1
    else
      match (operators.map String.ofList).find? (startsWith · rest) with
      | some op => some op.utf8ByteSize
      | none => markedSize? (c :: s)

theorem markedSize?_eq (s : List Char) : markedSize? s = (marked? s).map size := by
  cases s with
  | nil => rfl
  | cons c s =>
    rw [markedSize?]
    split
    · next hc =>
      subst hc
      rw [marked?_apostrophe, Option.map_map]
      rfl
    split
    · next hc =>
      subst hc
      simp only [marked?_backtick, size_takeWhile_pos_iff]
      rw [apply_ite (Option.map size)]
      rfl
    · next hquote htick => rw [marked?_eq_none hquote htick, Option.map_none]

theorem symbolSize?_eq (rest : String) : symbolSize? rest = (symbol? rest.toList).map size := by
  have hone : punctuation.all (·.utf8Size = 1) = true := by decide
  rw [symbolSize?]
  simp only [startsWith_eq]
  cases rest.toList with
  | nil => rfl
  | cons c s =>
    simp only [symbol?]
    split
    · next hc =>
      have hsize : c.utf8Size = 1 := of_decide_eq_true (List.all_eq_true.1 hone c hc)
      rw [Option.map_some, size_cons, hsize, size_nil]
    · rw [List.find?_map]
      simp only [Function.comp_def, String.toList_ofList]
      cases operators.find? (·.isPrefixOf (c :: s)) with
      | none => exact markedSize?_eq (c :: s)
      | some w => exact congrArg some (utf8ByteSize_ofList w)

/-! ### All kinds -/

/-- The size of the lexeme of a kind that the text starts with. -/
def sizeOfKind? (k : Token.Kind) (prev : Option Char) (rest : String) :
    Except BadSlice (Option Nat) :=
  match k with
  | .keyword => keywordSize? prev rest
  | .paramOpen => .ok (paramOpenSize? rest)
  | .ident => .ok (identSize? rest)
  | .number => numberSize? rest
  | .symbol => .ok (symbolSize? rest)

theorem sizeOfKind?_eq (k : Token.Kind) (prev : Option Char) (rest : String) :
    sizeOfKind? k prev rest = .ok ((ofKind? prev rest.toList k).map size) := by
  cases k with
  | keyword => exact keywordSize?_eq prev rest
  | paramOpen => exact congrArg _ (paramOpenSize?_eq rest)
  | ident => exact congrArg _ (identSize?_eq rest)
  | number => exact numberSize?_eq rest
  | symbol => exact congrArg _ (symbolSize?_eq rest)

/-- What is asked of a size: it is not zero, and the text goes on that far and has a boundary
there. -/
structure Fits (rest : String) (n : Nat) : Prop where
  pos : 1 ≤ n
  le : n ≤ rest.utf8ByteSize
  boundary : OnBoundary rest n

theorem fits_size (hw : w <+: rest.toList) (hne : w ≠ []) : Fits rest (size w) := by
  obtain ⟨t, ht⟩ := hw
  have hboundary : OnBoundary rest (size w) := onBoundary_size ht.symm
  exact ⟨size_pos hne, hboundary.le, hboundary⟩

/-- For every kind the slices are defined, and a size that is answered fits the text. -/
theorem yields_sizeOfKind? (k : Token.Kind) (prev : Option Char) (rest : String) :
    Yields (sizeOfKind? k prev rest) fun n? => ∀ n ∈ n?, Fits rest n := by
  refine ⟨_, sizeOfKind?_eq k prev rest, fun n hn => ?_⟩
  obtain ⟨w, hw, rfl⟩ := Option.map_eq_some_iff.1 hn
  exact fits_size (ofKind?_isPrefix hw) (ofKind?_ne_nil hw)

end ModuleHierarchy.Lexeme
