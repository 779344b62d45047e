/-
ModuleHierarchy/Proofs/Extraction/Append.lean

Tokens that are put behind others take nothing away.  For a fixed set of definitions the second
pass finds what it found before, and then what is new (`findings_isPrefix`): at the last two tokens,
where more may be ahead now, it had found nothing yet unless the instantiation was complete.

But more tokens may also define more modules, and then a name that meant nothing before is placed,
in the middle of what was found.  No definition gets lost, so what was placed before is what is
placed now of the modules that were defined before (`placedIn_eq_filter`).  In this way children are
put between the old ones, and none of the old ones is lost or moved (`sublist_children_append`).
-/
import ModuleHierarchy.Proofs.Extraction.Keys

namespace ModuleHierarchy

variable {defs defs' : List String} {ts us : List Token} {t : Token} {n : String}

namespace Scan

/-! ### The first pass -/

theorem declarations_isPrefix (ts us : List Token) :
    declarations ts <+: declarations (ts ++ us) := by
  fun_induction declarations ts with
  | case1 t name ts ht ih =>
    rw [List.cons_append, List.cons_append, declarations, if_pos ht]
    exact (List.prefix_cons_inj name).2 ih
  | case2 t name ts ht ih =>
    rw [List.cons_append, List.cons_append, declarations, if_neg ht]
    exact ih
  | case3 => exact List.nil_prefix

theorem definitions_subset (ts us : List Token) : definitions ts ⊆ definitions (ts ++ us) := by
  intro n hn
  rw [definitions, Names.mem_ofList] at hn ⊢
  exact ((declarations_isPrefix ts us).map Token.text).subset hn

/-! ### The second pass -/

/-- A complete instantiation stays one. -/
theorem places_append_of_places (h : places defs t ts = true) (us : List Token) :
    places defs t (ts ++ us) = true := by
  rw [places, Bool.and_eq_true] at h ⊢
  obtain ⟨hdefined, hnext⟩ := h
  refine ⟨hdefined, ?_⟩
  cases ts with
  | nil => cases hnext
  | cons next ts =>
    cases ts with
    | nil =>
      rw [continuesInstantiation, List.head?_nil, Option.any_none, Bool.and_false,
        Bool.false_or] at hnext
      rw [List.singleton_append, continuesInstantiation, hnext, Bool.or_true]
    | cons next' ts => exact hnext

/-- At the last token nothing is found. -/
theorem findingsFrom_singleton (defs : List String) (current : Option Token) (t : Token) :
    findingsFrom defs current [t] = [] := by
  cases current <;> simp [findingsFrom, header?, places, continuesInstantiation]

theorem findingsFrom_isPrefix (defs : List String) (current : Option Token) (ts us : List Token) :
    findingsFrom defs current ts <+: findingsFrom defs current (ts ++ us) := by
  induction ts generalizing current with
  | nil => exact List.nil_prefix
  | cons t ts ih =>
    rw [List.cons_append]
    by_cases hend : t.spells Token.endmoduleWord = true
    · rw [findingsFrom_of_closing hend, findingsFrom_of_closing hend]
      exact ih none
    rcases ts with - | ⟨next, ts⟩
    · rw [findingsFrom_singleton]
      exact List.nil_prefix
    have hheader : header? t (next :: ts ++ us) = header? t (next :: ts) := rfl
    cases hh : header? t (next :: ts) with
    | some inner =>
      rw [findingsFrom_of_opening hend hh, findingsFrom_of_opening hend (hheader.trans hh)]
      exact (List.prefix_append_right_inj _).2 (ih (some inner))
    | none =>
      rw [findingsFrom_of_body hend hh, findingsFrom_of_body hend (hheader.trans hh)]
      by_cases hp : places defs t (next :: ts) = true
      · rw [if_pos hp, if_pos (places_append_of_places hp us)]
        exact (List.prefix_append_right_inj _).2 (ih current)
      rw [if_neg hp, Option.bind_none, Option.toList_none, List.nil_append]
      rcases ts with - | ⟨next', ts⟩
      · -- only here more is ahead, and there is nothing that it could be put in front of
        rw [findingsFrom_singleton]
        exact List.nil_prefix
      have hplaces :
          places defs t (next :: next' :: ts ++ us) = places defs t (next :: next' :: ts) := rfl
      rw [hplaces, if_neg hp, Option.bind_none, Option.toList_none, List.nil_append]
      exact ih current

theorem findings_isPrefix (defs : List String) (ts us : List Token) :
    findings defs ts <+: findings defs (ts ++ us) :=
  findingsFrom_isPrefix defs none ts us

theorem placedIn_isPrefix (defs : List String) (ts us : List Token) (n : String) :
    placedIn defs ts n <+: placedIn defs (ts ++ us) n := by
  rw [← offered_links, ← offered_links]
  exact (((findings_isPrefix defs ts us).filterMap Finding.link?).map Link.names).filterMap _

/-- With fewer definitions, less is placed at a position: what they do not define is left out. -/
theorem placedAt?_eq_filter (h : defs ⊆ defs') (ts : List Token) (i : Nat) :
    placedAt? defs ts i = (placedAt? defs' ts i).filter (·.text ∈ defs) := by
  rw [placedAt?, placedAt?, Option.filter_filter]
  congr 1
  funext t
  by_cases ht : t.text ∈ defs
  · simp [ht, h ht]
  · simp [ht]

theorem placedIn_eq_filter (h : defs ⊆ defs') (ts : List Token) (n : String) :
    placedIn defs ts n = (placedIn defs' ts n).filter (· ∈ defs) := by
  rw [placedIn, placedIn, List.filter_filterMap]
  refine List.filterMap_congr fun i _ => ?_
  split
  · rw [placedAt?_eq_filter h, Option.filter_map]
    rfl
  · rfl

end Scan

/-! ### The hierarchy -/

namespace Extraction

theorem childrenOf_append_sublist (ts us : List Token) (n : String) :
    ((ofTokens ts ∅).hierarchy.childrenOf n).Sublist
      ((ofTokens (ts ++ us) ∅).hierarchy.childrenOf n) := by
  rw [childrenOf_ofTokens_empty, childrenOf_ofTokens_empty,
    Scan.placedIn_eq_filter (Scan.definitions_subset ts us), Hierarchy.gained_filter]
  have hlater := Hierarchy.gained_isPrefix n [] (Scan.placedIn_isPrefix
    (Scan.definitions (ts ++ us)) ts us n)
  exact List.filter_sublist.trans hlater.sublist

/-- **Appended tokens take nothing away.**  Wherever a list of tokens ends, what is put behind it
leaves every module its entry and its children in their order.  New children may come between
them. -/
theorem sublist_children_append (ts us : List Token) :
    (ofTokens ts ∅).hierarchy.keys ⊆ (ofTokens (ts ++ us) ∅).hierarchy.keys ∧
      ∀ n, ((ofTokens ts ∅).hierarchy.childrenOf n).Sublist
        ((ofTokens (ts ++ us) ∅).hierarchy.childrenOf n) := by
  refine ⟨fun n hn => ?_, childrenOf_append_sublist ts us⟩
  rw [← Hierarchy.contains_iff_mem_keys, contains_ofTokens_empty,
    ← childrenOf_ofTokens_empty] at hn ⊢
  refine hn.imp (fun hdefined => Scan.definitions_subset ts us hdefined) fun hchildren hnil => ?_
  have hsub := childrenOf_append_sublist ts us n
  rw [hnil] at hsub
  exact hchildren (List.sublist_nil.1 hsub)

-- the module `a` is defined by what is appended, and it is placed in front of `b`
example :
    let ts := Token.ofText "module top; a u (); b v (); endmodule module b; endmodule".toList
    let us := Token.ofText "module a; endmodule".toList
    (ofTokens ts ∅).hierarchy.childrenOf "top" = ["b"] ∧
      (ofTokens (ts ++ us) ∅).hierarchy.childrenOf "top" = ["a", "b"] := by
  decide +kernel

end Extraction

end ModuleHierarchy
