/-
ModuleHierarchy/Proofs/Text/Slice.lean

Texts as the bytes of their encoding in UTF-8, and slices of them.  A slice is given by two byte
indices and is partial: both ends have to lie on character boundaries of the text, in order
(`slice`).  So a slice is again a text, and where it is not defined the answer says which one was
asked for.

Byte indices are counted by adding up the sizes of characters.  Such an index lies on a boundary
(`onBoundary_iff`), and between two of them stands what was added up:

    slice s (size p) (size p + size m) = .ok m    for s = p ++ m ++ q              (`slice_eq`).

A search for a text within a text compares bytes.  What it finds is where the text stands first
among the characters (`find?_eq_some`): the first byte of a character does not occur within another
one, so nothing is found off a boundary.  Where bytes are tested one by one, the test is one that
only ASCII meets, and then it may as well be put to the characters (`AsciiTest`).
-/
import ModuleHierarchy.Proofs.Text.ByteOrder

namespace ModuleHierarchy.Text

variable {s mark : String} {p m q t : List Char} {i : Nat}

/-! ### Computations that may fail -/

section Bind

variable {ε α β : Type}

@[simp] theorem ok_bind (a : α) (f : α → Except ε β) : (.ok a >>= f) = f a := rfl

/-- A computation that succeeds does so step by step. -/
theorem exists_ok_of_bind {x : Except ε α} {f : α → Except ε β} {b : β} (h : x >>= f = .ok b) :
    ∃ a, x = .ok a ∧ f a = .ok b := by
  cases x with
  | error e => cases h
  | ok a => exact ⟨a, rfl, h⟩

end Bind

/-! ### Sizes -/

/-- The number of bytes of some characters. -/
def size : List Char → Nat
  | [] => 0
  | c :: s => c.utf8Size + size s

@[simp] theorem size_nil : size [] = 0 := rfl

@[simp] theorem size_cons (c : Char) (s : List Char) : size (c :: s) = c.utf8Size + size s := rfl

@[simp] theorem size_append (s t : List Char) : size (s ++ t) = size s + size t := by
  induction s with
  | nil => exact (Nat.zero_add _).symm
  | cons c s ih => rw [List.cons_append, size_cons, size_cons, ih, Nat.add_assoc]

theorem size_pos (h : t ≠ []) : 0 < size t := by
  obtain ⟨c, t, rfl⟩ := List.exists_cons_of_ne_nil h
  rw [size_cons]
  exact Nat.add_pos_left c.utf8Size_pos _

theorem bytes_ofList (t : List Char) :
    bytes (String.ofList t) = t.flatMap String.utf8EncodeChar := by
  rw [bytes_eq_flatMap, String.toList_ofList]

@[simp] theorem length_bytes (s : String) : (bytes s).length = s.utf8ByteSize := rfl

theorem length_flatMap_utf8EncodeChar (t : List Char) :
    (t.flatMap String.utf8EncodeChar).length = size t := by
  induction t with
  | nil => rfl
  | cons c t ih =>
    rw [List.flatMap_cons, List.length_append, String.length_utf8EncodeChar, ih, size_cons]

theorem utf8ByteSize_eq_size (s : String) : s.utf8ByteSize = size s.toList := by
  rw [← length_bytes, bytes_eq_flatMap, length_flatMap_utf8EncodeChar]

@[simp] theorem utf8ByteSize_ofList (t : List Char) : (String.ofList t).utf8ByteSize = size t := by
  rw [utf8ByteSize_eq_size, String.toList_ofList]

theorem bytes_eq_append (h : s.toList = p ++ q) :
    bytes s = bytes (String.ofList p) ++ bytes (String.ofList q) := by
  rw [bytes_eq_flatMap, h, List.flatMap_append, bytes_ofList, bytes_ofList]

theorem bytes_drop (h : s.toList = p ++ q) :
    (bytes s).drop (size p) = bytes (String.ofList q) := by
  rw [bytes_eq_append h, ← utf8ByteSize_ofList p, ← length_bytes, List.drop_left]

/-! ### Boundaries -/

/-- Whether a byte index lies between two characters of the text or at one of its ends. -/
def OnBoundary (s : String) (i : Nat) : Prop :=
  (String.Pos.Raw.mk i).IsValid s

instance : Decidable (OnBoundary s i) :=
  inferInstanceAs (Decidable ((String.Pos.Raw.mk i).IsValid s))

theorem onBoundary_iff : OnBoundary s i ↔ ∃ p q, s.toList = p ++ q ∧ i = size p := by
  rw [OnBoundary, String.Pos.Raw.isValid_iff_exists_append]
  constructor
  · rintro ⟨a, b, rfl, hi⟩
    refine ⟨a.toList, b.toList, String.toList_append, ?_⟩
    rw [← utf8ByteSize_eq_size]
    exact congrArg String.Pos.Raw.byteIdx hi
  · rintro ⟨p, q, hs, rfl⟩
    refine ⟨String.ofList p, String.ofList q, ?_, ?_⟩
    · rw [← String.ofList_append, ← hs, String.ofList_toList]
    · rw [String.Pos.Raw.ext_iff, String.byteIdx_rawEndPos, utf8ByteSize_ofList]

theorem onBoundary_size (h : s.toList = p ++ q) : OnBoundary s (size p) :=
  onBoundary_iff.2 ⟨p, q, h, rfl⟩

/-- A boundary lies within the text. -/
theorem OnBoundary.le (h : OnBoundary s i) : i ≤ s.utf8ByteSize := by
  obtain ⟨p, q, hs, rfl⟩ := onBoundary_iff.1 h
  rw [utf8ByteSize_eq_size, hs, size_append]
  exact Nat.le_add_right _ _

/-! ### Slices -/

/-- A slice that the text does not have. -/
structure BadSlice where
  text : String
  start : Nat
  stop : Nat
deriving DecidableEq, Repr

/-- Every slice that is taken on the way is defined, and the result is as described. -/
def Yields {α : Type} (x : Except BadSlice α) (post : α → Prop) : Prop :=
  ∃ a, x = .ok a ∧ post a

/-- The text from one byte index up to another.  Both must be boundaries, and in order. -/
def slice (s : String) (start stop : Nat) : Except BadSlice String :=
  if h : start ≤ stop ∧ OnBoundary s start ∧ OnBoundary s stop then
    .ok (s.extract (s.pos ⟨start⟩ h.2.1) (s.pos ⟨stop⟩ h.2.2))
  else .error ⟨s, start, stop⟩

/-- The text from a byte index on. -/
def sliceFrom (s : String) (start : Nat) : Except BadSlice String :=
  slice s start s.utf8ByteSize

/-- The text up to a byte index. -/
def sliceTo (s : String) (stop : Nat) : Except BadSlice String :=
  slice s 0 stop

/-- The bytes of the text from an index on, which need not be a boundary. -/
def bytesFrom (s : String) (start : Nat) : Except BadSlice (List UInt8) :=
  if start ≤ s.utf8ByteSize then .ok ((bytes s).drop start)
  else .error ⟨s, start, s.utf8ByteSize⟩

theorem slice_eq (h : s.toList = p ++ m ++ q) :
    slice s (size p) (size p + size m) = .ok (String.ofList m) := by
  have hstart : OnBoundary s (size p) := onBoundary_size (by rw [h, List.append_assoc])
  have hstop : OnBoundary s (size p + size m) := by
    rw [← size_append]
    exact onBoundary_size h
  rw [slice, dif_pos ⟨Nat.le_add_right _ _, hstart, hstop⟩]
  refine congrArg _ (String.toByteArray_inj.1 ?_)
  have hp : size p = p.utf8Encode.size := (utf8ByteSize_ofList p).symm
  have hm : size m = m.utf8Encode.size := (utf8ByteSize_ofList m).symm
  show s.toByteArray.extract (size p + 0) (size p + size m) = m.utf8Encode
  rw [← String.utf8Encode_toList, h, List.append_assoc, List.utf8Encode_append,
    List.utf8Encode_append, ByteArray.extract_append_size_add' hp,
    ByteArray.extract_append_eq_left hm]

theorem sliceFrom_eq (h : s.toList = p ++ q) : sliceFrom s (size p) = .ok (String.ofList q) := by
  have hslice := slice_eq (q := []) (by rw [h, List.append_nil])
  rwa [← size_append, ← h, ← utf8ByteSize_eq_size] at hslice

theorem sliceTo_eq (h : s.toList = p ++ q) : sliceTo s (size p) = .ok (String.ofList p) := by
  have hslice := slice_eq (p := []) h
  rwa [size_nil, Nat.zero_add] at hslice

theorem bytesFrom_eq (h : s.toList = p ++ q) :
    bytesFrom s (size p) = .ok (bytes (String.ofList q)) := by
  rw [bytesFrom, if_pos (onBoundary_size h).le, bytes_drop h]

/-! ### Searches -/

/-- Whether the text starts with the bytes of another one. -/
def startsWith (mark s : String) : Bool :=
  (bytes mark).isPrefixOf (bytes s)

/-- The first byte index at which the bytes of a text stand in another one. -/
def find? (mark s : String) : Option Nat :=
  (List.range (s.utf8ByteSize + 1)).find? fun i => (bytes mark).isPrefixOf ((bytes s).drop i)

theorem bytes_prefix_iff : bytes mark <+: bytes s ↔ mark.toList <+: s.toList := by
  constructor
  · rintro ⟨rest, h⟩
    refine List.isPrefix_of_utf8Encode_append_eq_utf8Encode ⟨rest.toArray⟩ ?_
    rw [String.utf8Encode_toList, String.utf8Encode_toList]
    refine ByteArray.ext (Array.toList_inj.1 ?_)
    rw [ByteArray.data_append, Array.toList_append]
    exact h
  · rintro ⟨rest, h⟩
    rw [bytes_eq_append h.symm, String.ofList_toList]
    exact List.prefix_append _ _

theorem bytes_prefix_drop (h : s.toList = p ++ q) :
    bytes mark <+: (bytes s).drop (size p) ↔ mark.toList <+: q := by
  rw [bytes_drop h, bytes_prefix_iff, String.toList_ofList]

theorem startsWith_eq (mark s : String) :
    startsWith mark s = mark.toList.isPrefixOf s.toList := by
  rw [Bool.eq_iff_iff, startsWith, List.isPrefixOf_iff_prefix, List.isPrefixOf_iff_prefix,
    bytes_prefix_iff]

/-- A text that is not empty does not start within a character. -/
theorem onBoundary_of_isPrefix (hmark : mark ≠ "") (h : bytes mark <+: (bytes s).drop i) :
    OnBoundary s i := by
  have hpos : 0 < (bytes mark).length := by
    rw [length_bytes, utf8ByteSize_eq_size]
    exact size_pos fun hnil => hmark (String.toList_eq_nil_iff.1 hnil)
  -- the byte at the index is the first byte of the text that is found, so a character starts there
  have hlt : i < (bytes s).length := by
    have hle := h.length_le
    rw [List.length_drop] at hle
    omega
  refine String.Pos.Raw.isValid_iff_isUTF8FirstByte.2 (.inr ⟨hlt, ?_⟩)
  have hfirst := String.isUTF8FirstByte_getUTF8Byte_zero (b := mark) (h := hpos)
  have hbyte : (bytes s)[i] = (bytes mark)[0] := by
    rw [h.getElem hpos, List.getElem_drop]
    rfl
  show (bytes s)[i].IsUTF8FirstByte
  rw [hbyte]
  exact hfirst

/-- What a search finds: the text stands there and does not start among the characters before. -/
theorem find?_eq_some (hm : mark.toList = m) (ht : s.toList = t) (hne : m ≠ [])
    (h : find? mark s = some i) :
    ∃ p r, t = p ++ m ++ r ∧ i = size p ∧
      ∀ a b, p = a ++ b → b ≠ [] → ¬ m <+: b ++ (m ++ r) := by
  rw [find?, List.find?_range_eq_some, List.isPrefixOf_iff_prefix] at h
  obtain ⟨hhere, -, hbefore⟩ := h
  have hmark : mark ≠ "" := fun hempty => hne (by rw [← hm, hempty, String.toList_empty])
  obtain ⟨p, q, hs, rfl⟩ := onBoundary_iff.1 (onBoundary_of_isPrefix hmark hhere)
  rw [bytes_prefix_drop hs, hm] at hhere
  obtain ⟨r, rfl⟩ := hhere
  refine ⟨p, r, by rw [← ht, hs, List.append_assoc], rfl, ?_⟩
  rintro a b rfl hb hprefix
  have hlt : size a < size (a ++ b) := by
    rw [size_append]
    exact Nat.lt_add_of_pos_right (size_pos hb)
  have hnot := hbefore (size a) hlt
  rw [List.append_assoc] at hs
  rw [Bool.not_eq_eq_eq_not, Bool.not_true, ← Bool.not_eq_true, List.isPrefixOf_iff_prefix,
    bytes_prefix_drop hs, hm] at hnot
  exact hnot hprefix

/-- Where a search finds nothing, the text does not occur. -/
theorem find?_eq_none (hm : mark.toList = m) (ht : s.toList = t) (h : find? mark s = none) :
    ¬ m <:+: t := by
  rintro ⟨p, r, hs⟩
  rw [List.append_assoc, ← ht] at hs
  have hmem : size p ∈ List.range (s.utf8ByteSize + 1) := by
    rw [List.mem_range]
    exact Nat.lt_succ_of_le (onBoundary_size hs.symm).le
  have hnot := List.find?_eq_none.1 h (size p) hmem
  rw [List.isPrefixOf_iff_prefix, bytes_prefix_drop hs.symm, hm] at hnot
  exact hnot (List.prefix_append _ _)

theorem find?_char_eq_some {c : Char} (hm : mark.toList = [c]) (ht : s.toList = t)
    (h : find? mark s = some i) : ∃ p r, t = p ++ c :: r ∧ i = size p ∧ c ∉ p := by
  obtain ⟨p, r, rfl, rfl, hp⟩ := find?_eq_some hm ht (List.cons_ne_nil c []) h
  refine ⟨p, r, by rw [List.append_assoc, List.singleton_append], rfl, fun hmem => ?_⟩
  obtain ⟨a, b, hab⟩ := List.append_of_mem hmem
  exact hp a (c :: b) hab (List.cons_ne_nil c b) ⟨b ++ ([c] ++ r), rfl⟩

theorem find?_char_eq_none {c : Char} (hm : mark.toList = [c]) (ht : s.toList = t)
    (h : find? mark s = none) : c ∉ t := fun hmem => by
  obtain ⟨a, b, rfl⟩ := List.append_of_mem hmem
  exact find?_eq_none hm ht h ⟨a, b, by rw [List.append_assoc, List.singleton_append]⟩

/-! ### ASCII -/

theorem utf8EncodeChar_ascii {c : Char} (h : c.toNat < 128) :
    String.utf8EncodeChar c = [UInt8.ofNat c.toNat] := by
  have hle : c.val.toNat ≤ 127 := Nat.le_of_lt_succ h
  rw [String.utf8EncodeChar, if_pos hle]
  rfl

/-- The bytes of a character beyond ASCII are beyond ASCII. -/
theorem le_of_mem_utf8EncodeChar {c : Char} {b : UInt8} (h : 128 ≤ c.toNat)
    (hb : b ∈ String.utf8EncodeChar c) : 128 ≤ b.toNat := by
  have hcode : 128 ≤ c.val.toNat := h
  have hbound := toNat_val_lt c
  simp only [String.utf8EncodeChar] at hb
  generalize c.val.toNat = n at hcode hbound hb
  rw [if_neg (by omega)] at hb
  split_ifs at hb <;>
    simp only [List.mem_cons, List.not_mem_nil, or_false] at hb <;>
    rcases hb with rfl | rfl | rfl | rfl <;>
    simp <;> omega

/-- A test of bytes and a test of characters that agree on ASCII and that nothing else meets. -/
structure AsciiTest (onByte : UInt8 → Bool) (onChar : Char → Bool) : Prop where
  agree : ∀ n < 128, onByte (UInt8.ofNat n) = onChar (Char.ofNat n)
  byte_lt : ∀ b, onByte b = true → b.toNat < 128
  char_lt : ∀ c, onChar c = true → c.toNat < 128

namespace AsciiTest

variable {onByte : UInt8 → Bool} {onChar : Char → Bool} (h : AsciiTest onByte onChar)
include h

/-- The first byte of a character meets the test if the character does, and then it is its only
byte. -/
theorem exists_utf8EncodeChar (c : Char) :
    ∃ b bs, String.utf8EncodeChar c = b :: bs ∧ onByte b = onChar c ∧
      (onChar c = true → bs = []) := by
  by_cases hc : c.toNat < 128
  · refine ⟨_, [], utf8EncodeChar_ascii hc, ?_, fun _ => rfl⟩
    rw [h.agree _ hc, Char.ofNat_toNat]
  · obtain ⟨b, bs, hb⟩ := List.exists_cons_of_ne_nil (String.utf8EncodeChar_ne_nil (c := c))
    have hle : 128 ≤ b.toNat :=
      le_of_mem_utf8EncodeChar (Nat.le_of_not_lt hc) (by rw [hb]; exact List.mem_cons_self)
    have hbyte : onByte b = false :=
      Bool.eq_false_iff.2 fun hb => Nat.not_lt_of_le hle (h.byte_lt b hb)
    have hchar : onChar c = false := Bool.eq_false_iff.2 fun hmeets => hc (h.char_lt c hmeets)
    exact ⟨b, bs, hb, hbyte.trans hchar.symm, fun hmeets => absurd (hchar ▸ hmeets) (by decide)⟩

theorem utf8Size_eq_one {c : Char} (hc : onChar c = true) : c.utf8Size = 1 := by
  obtain ⟨b, bs, hb, -, hbs⟩ := h.exists_utf8EncodeChar c
  rw [← String.length_utf8EncodeChar, hb, hbs hc]
  rfl

/-- The byte behind a boundary meets the test if the character there does. -/
theorem any_getElem?_bytes (hs : s.toList = p ++ q) :
    (bytes s)[size p]?.any onByte = q.head?.any onChar := by
  rw [← List.head?_drop, bytes_drop hs, bytes_ofList]
  cases q with
  | nil => rfl
  | cons c q =>
    obtain ⟨b, bs, hb, hagree, -⟩ := h.exists_utf8EncodeChar c
    rw [List.flatMap_cons, hb]
    exact hagree

/-- As many bytes meet the test in a row as characters do. -/
theorem length_takeWhile_bytes (t : List Char) :
    ((bytes (String.ofList t)).takeWhile onByte).length = size (t.takeWhile onChar) := by
  rw [bytes_ofList]
  induction t with
  | nil => rfl
  | cons c t ih =>
    obtain ⟨b, bs, hb, hagree, hbs⟩ := h.exists_utf8EncodeChar c
    rw [List.flatMap_cons, hb, List.cons_append]
    by_cases hc : onChar c = true
    · rw [hbs hc, List.takeWhile_cons_of_pos (hagree.trans hc), List.takeWhile_cons_of_pos hc,
        List.length_cons, List.nil_append, ih, size_cons, h.utf8Size_eq_one hc, Nat.add_comm]
    · rw [List.takeWhile_cons_of_neg (hagree ▸ hc), List.takeWhile_cons_of_neg hc]
      rfl

end AsciiTest

end ModuleHierarchy.Text
