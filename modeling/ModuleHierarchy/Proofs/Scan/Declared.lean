/-
ModuleHierarchy/Proofs/Scan/Declared.lean

What the first pass leaves behind, in full.  A token is declared if the longest run of `module`
tokens right before it is odd (`declaredAt?_eq_some_iff`); where the run is even, the last `module`
of it is a name itself.  From the declared tokens all three results are read off:

* the definitions are their texts, as a set;
* a hierarchy keeps all it has and gets an empty entry for each definition that has none
  (`children?_defineDeclared`);
* a declared token is warned of if its text was declared at an earlier position
  (`redefinitions_eq_filterMap`), whether or not the hierarchy had an entry before.

The last two use different tests, one on the hierarchy and one on the names met so far.  That they
stay in step with the set is a count: each declared token either is new to the definitions or is
warned of,

    (redefinitions ts).length + (definitions ts).length = (declarations ts).length.
-/
import Mathlib.Data.Finset.Card
import ModuleHierarchy.Proofs.Extraction.Keys

namespace ModuleHierarchy.Scan

variable {ts : List Token} {t name : Token} {i n : Nat}

/-! ### Runs of `module` -/

/-- The `n` tokens right before the position `stop` are `module`, and there is no longer run of them
that ends there. -/
structure LongestRun (ts : List Token) (stop n : Nat) : Prop where
  fits : n ≤ stop
  modules : ∀ j, j < stop → stop ≤ j + n → ts[j]?.any (·.text == "module") = true
  longest : ∀ j, j + n + 1 = stop → ts[j]?.any (·.text == "module") = false

theorem longestRun_moduleRun (ts : List Token) (stop : Nat) :
    LongestRun ts stop (moduleRun ts stop) := by
  induction stop with
  | zero => exact ⟨Nat.le_refl 0, fun j hj => absurd hj (Nat.not_lt_zero j), by simp⟩
  | succ stop ih =>
    rw [moduleRun]
    split
    · next hmodule =>
      refine ⟨Nat.succ_le_succ ih.fits, fun j hj hrun => ?_, fun j hj => ih.longest j (by omega)⟩
      rcases Nat.lt_succ_iff_lt_or_eq.1 hj with hj | rfl
      · exact ih.modules j hj (by omega)
      · exact hmodule
    · next hother =>
      refine ⟨Nat.zero_le _, fun j hj hrun => absurd hrun (by omega), fun j hj => ?_⟩
      obtain rfl : j = stop := by omega
      exact Bool.eq_false_of_not_eq_true hother

theorem LongestRun.unique {stop m : Nat} (hm : LongestRun ts stop m) (hn : LongestRun ts stop n) :
    m = n := by
  -- a shorter run would be followed, towards the front, by a `module` of the longer one
  have hle {m n : Nat} (hm : LongestRun ts stop m) (hn : LongestRun ts stop n) : m ≤ n := by
    by_contra hlt
    have hfits := hm.fits
    have hmodule := hm.modules (stop - n - 1) (by omega) (by omega)
    rw [hn.longest (stop - n - 1) (by omega)] at hmodule
    cases hmodule
  exact Nat.le_antisymm (hle hm hn) (hle hn hm)

theorem declaredAt?_eq_some_iff :
    declaredAt? ts i = some name ↔ ts[i]? = some name ∧ ∃ n, n % 2 = 1 ∧ LongestRun ts i n := by
  have hrun := longestRun_moduleRun ts i
  constructor
  · intro h
    rw [declaredAt?] at h
    split at h
    · next hodd => exact ⟨h, moduleRun ts i, hodd, hrun⟩
    · cases h
  · rintro ⟨h, n, hodd, hn⟩
    obtain rfl := hn.unique hrun
    rw [declaredAt?_of_odd hodd, h]

/-! ### The hierarchy -/

theorem children?_defineDeclared (ts : List Token) (h : Hierarchy) (n : String) :
    (defineDeclared ts h).children? n =
      (h.children? n).or (if n ∈ definitions ts then some [] else none) := by
  have hcontains : (defineDeclared ts h).contains n = true ↔
      h.contains n = true ∨ n ∈ definitions ts := by
    rw [defineDeclared, Hierarchy.contains_defineAll, definitions, Names.mem_ofList]
  have hchildren : (defineDeclared ts h).childrenOf n = h.childrenOf n :=
    Hierarchy.childrenOf_defineAll h _ n
  rw [Hierarchy.children?_eq_ite, hchildren, if_congr hcontains rfl rfl,
    Hierarchy.contains_eq_isSome, Hierarchy.childrenOf]
  cases h.children? n with
  | none => simp
  | some l => simp

/-! ### Repeated names -/

/-- The text of the token was met before, or is found at a position before `i` and not before
`start`. -/
def Met (seen : List String) (f : Nat → Option Token) (start i : Nat) (t : Token) : Prop :=
  t.text ∈ seen ∨ ∃ j < i, start ≤ j ∧ (f j).map Token.text = some t.text

instance (seen : List String) (f : Nat → Option Token) (start i : Nat) (t : Token) :
    Decidable (Met seen f start i t) := by
  unfold Met; infer_instance

theorem met_start_iff {seen : List String} {f : Nat → Option Token} :
    Met seen f i i t ↔ t.text ∈ seen := by
  refine or_iff_left ?_
  rintro ⟨j, hj, hle, -⟩
  exact absurd hj (Nat.not_lt.2 hle)

/-- The text found at `start` may as well have been met before. -/
theorem met_succ_iff {seen seen' : List String} {f : Nat → Option Token} {start : Nat}
    (hseen : ∀ x, x ∈ seen' ↔ x ∈ seen ∨ (f start).map Token.text = some x) (hi : start < i) :
    Met seen' f (start + 1) i t ↔ Met seen f start i t := by
  rw [Met, Met, hseen, or_assoc]
  refine or_congr_right ⟨?_, ?_⟩
  · rintro (hfirst | ⟨j, hj, hle, htext⟩)
    · exact ⟨start, hi, Nat.le_refl _, hfirst⟩
    · exact ⟨j, hj, Nat.le_of_succ_le hle, htext⟩
  · rintro ⟨j, hj, hle, htext⟩
    rcases Nat.eq_or_lt_of_le hle with rfl | hlt
    · exact .inl htext
    · exact .inr ⟨j, hj, hlt, htext⟩

theorem repeated_filterMap_range' (seen : List String) (f : Nat → Option Token) (start n : Nat) :
    repeated seen ((List.range' start n).filterMap f) =
      (List.range' start n).filterMap fun i => (f i).filter fun t => Met seen f start i t := by
  induction n generalizing seen start with
  | zero => rfl
  | succ n ih =>
    have hlater (seen' : List String)
        (hseen : ∀ x, x ∈ seen' ↔ x ∈ seen ∨ (f start).map Token.text = some x) :
        repeated seen' ((List.range' (start + 1) n).filterMap f) =
          (List.range' (start + 1) n).filterMap fun i =>
            (f i).filter fun t => Met seen f start i t := by
      rw [ih]
      refine List.filterMap_congr fun i hi => ?_
      have hstart : start < i := (List.mem_range'_1.1 hi).1
      simp only [met_succ_iff hseen hstart]
    rw [List.range'_succ, List.filterMap_cons, List.filterMap_cons]
    cases hf : f start with
    | none => exact hlater seen fun x => by simp [hf]
    | some t =>
      rw [Option.filter_some, decide_eq_decide.2 met_start_iff]
      by_cases ht : t.text ∈ seen
      · rw [repeated, if_pos ht, if_pos (decide_eq_true ht), hlater seen fun x => ?_]
        rw [hf, Option.map_some, Option.some.injEq]
        exact (or_iff_left_of_imp fun hx => hx ▸ ht).symm
      · rw [repeated, if_neg ht, if_neg (by simpa using ht), hlater (t.text :: seen) fun x => ?_]
        rw [hf, Option.map_some, Option.some.injEq, List.mem_cons, or_comm, eq_comm]

theorem redefinitions_eq_filterMap (ts : List Token) :
    redefinitions ts = (List.range ts.length).filterMap fun i =>
      ((declaredAt? ts i).filter fun name =>
        ∃ j < i, (declaredAt? ts j).map Token.text = some name.text).map .redefined := by
  rw [redefinitions, declarations_eq_filterMap, List.range_eq_range', repeated_filterMap_range',
    List.map_filterMap]
  simp [Met]

/-! ### Counting -/

theorem length_repeated (seen : List String) (ts : List Token) :
    (repeated seen ts).length + ((ts.map Token.text).toFinset \ seen.toFinset).card =
      ts.length := by
  induction ts generalizing seen with
  | nil => simp [repeated]
  | cons t ts ih =>
    rw [repeated, List.map_cons, List.toFinset_cons, List.length_cons]
    split
    · next ht =>
      rw [Finset.insert_sdiff_of_mem _ (List.mem_toFinset.2 ht), List.length_cons, ← ih seen]
      omega
    · next ht =>
      have hinsert : insert t.text (ts.map Token.text).toFinset \ seen.toFinset =
          insert t.text ((ts.map Token.text).toFinset \ (t.text :: seen).toFinset) := by
        ext x
        by_cases hx : x = t.text <;> simp [hx, ht]
      rw [hinsert, Finset.card_insert_of_notMem (by simp), ← Nat.add_assoc, ih]

theorem toFinset_definitions (ts : List Token) :
    (definitions ts).toFinset = ((declarations ts).map Token.text).toFinset := by
  ext x
  rw [List.mem_toFinset, List.mem_toFinset, definitions, Names.mem_ofList]

theorem length_definitions (ts : List Token) :
    (definitions ts).length = ((declarations ts).map Token.text).toFinset.card := by
  have hnodup : (definitions ts).Nodup := (Names.increasing_ofList _).nodup
  rw [← List.toFinset_card_of_nodup hnodup, toFinset_definitions]

/-- Each declared token is new to the definitions or warned of. -/
theorem length_redefinitions (ts : List Token) :
    (redefinitions ts).length + (definitions ts).length = (declarations ts).length := by
  rw [← length_repeated [] (declarations ts), redefinitions, List.length_map, length_definitions,
    List.toFinset_nil, Finset.sdiff_empty]

/-- Where nothing is warned of, as many names are defined as are declared. -/
theorem redefinitions_eq_nil_iff :
    redefinitions ts = [] ↔ ((declarations ts).map Token.text).Nodup := by
  have hcount := length_redefinitions ts
  have hdistinct := Multiset.toFinset_card_eq_card_iff_nodup
    (m := ((declarations ts).map Token.text : Multiset String))
  rw [length_definitions] at hcount
  rw [Multiset.coe_nodup, Multiset.coe_card, List.length_map] at hdistinct
  rw [← hdistinct, ← List.length_eq_zero_iff]
  show _ ↔ ((declarations ts).map Token.text).toFinset.card = _
  omega

/-! ### The first pass -/

/-- **What the first pass leaves.**  The declared names are the tokens behind a longest run of
`module` that is odd, in order.  The definitions are their texts; a hierarchy gets an empty entry
for each of them that has none and is the same elsewhere.  A declared token is warned of, at its
line and in order, if its text was declared before, so that as many are warned of as are not new to
the definitions. -/
theorem declared_of_odd_runs (ts : List Token) (h : Hierarchy) (source : Source) :
    declarations ts = (List.range ts.length).filterMap (declaredAt? ts) ∧
      (∀ i name, declaredAt? ts i = some name ↔
        ts[i]? = some name ∧ ∃ n, n % 2 = 1 ∧ LongestRun ts i n) ∧
      Names.Increasing (definitions ts) ∧
      (∀ n, n ∈ definitions ts ↔ ∃ i name, declaredAt? ts i = some name ∧ name.text = n) ∧
      (∀ n, (defineDeclared ts h).children? n =
        (h.children? n).or (if n ∈ definitions ts then some [] else none)) ∧
      ((redefinitions ts).map (·.diagnostic source) =
        (List.range ts.length).filterMap fun i =>
          ((declaredAt? ts i).filter fun name =>
            ∃ j < i, (declaredAt? ts j).map Token.text = some name.text).map fun name =>
              { severity := .warning
                message := s!"module `{name.text}` is defined more than once"
                segments := [.location ⟨source, name.line⟩,
                  .note "all definitions are merged into one node of the hierarchy"] }) ∧
      (redefinitions ts).length + (definitions ts).length = (declarations ts).length := by
  refine ⟨declarations_eq_filterMap ts, fun i name => declaredAt?_eq_some_iff,
    Names.increasing_ofList _, fun n => mem_definitions_iff, children?_defineDeclared ts h, ?_,
    length_redefinitions ts⟩
  rw [redefinitions_eq_filterMap, List.map_filterMap]
  refine List.filterMap_congr fun i _ => ?_
  rw [Option.map_map]
  rfl

-- the first `module` claims the second as its name, and the third claims what follows it
example : declarations [⟨.keyword, "module", 1⟩, ⟨.keyword, "module", 1⟩, ⟨.keyword, "module", 1⟩,
    ⟨.ident, "a", 2⟩, ⟨.ident, "b", 2⟩] = [⟨.keyword, "module", 1⟩, ⟨.ident, "a", 2⟩] := by decide

end ModuleHierarchy.Scan
