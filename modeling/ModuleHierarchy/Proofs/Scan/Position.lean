/-
ModuleHierarchy/Proofs/Scan/Position.lean

What both passes find, position by position.  The passes are recursions that carry a state along
the tokens; here the same results are read off the whole list, at each position on its own.

* `declaredAt?`: the token at a position is a declared name if the run of `module` tokens that
  ends right before it is odd.  In an even run each second `module` is a name itself.
* `event?`: `endmodule` is an event, and so is `module` in front of an identifier.  A position
  stands in the module that the last event before it opens (`owner?`).
* `findingAt?`: an opening event is a finding if the position stands in a module already; any
  other token is one if it is placed (`placedAt?`) and stands in a module.

Main results: the declared names are the tokens found by `declaredAt?`
(`declarations_eq_filterMap`), and the findings are those of `findingAt?`
(`findings_eq_filterMap`), both in the order of the positions.  Each is an induction over the
tokens still to come, for an arbitrary list `pre` of tokens already passed; the state of the pass
is what the definitions here say at position `pre.length`.
-/
import ModuleHierarchy.Scan.Declaration
import ModuleHierarchy.Scan.Instantiation

namespace ModuleHierarchy.Scan

variable {defs : List String} {ts pre suf : List Token} {t : Token} {i : Nat}

/-! ### Walking along the positions -/

theorem getElem?_append_cons_length (pre suf : List Token) (t : Token) :
    (pre ++ t :: suf)[pre.length]? = some t := by
  rw [List.getElem?_append_right (Nat.le_refl _), Nat.sub_self]
  rfl

theorem getElem?_append_cons_length_add (pre suf : List Token) (t : Token) (k : Nat) :
    (pre ++ t :: suf)[pre.length + (k + 1)]? = suf[k]? := by
  rw [List.getElem?_append_right (by omega)]
  simp

theorem filterMap_positions_cons {β : Type} (f : Nat → Option β) (n : Nat) (t : Token)
    (suf : List Token) :
    (List.range' n (t :: suf).length).filterMap f =
      (f n).toList ++ (List.range' (n + 1) suf.length).filterMap f := by
  rw [List.length_cons, List.range'_succ, List.filterMap_cons]
  cases f n <;> rfl

/-! ### Declared names -/

/-- How many tokens `module` stand in a row right before a position. -/
def moduleRun (ts : List Token) : Nat → Nat
  | 0 => 0
  | i + 1 => if ts[i]?.any (·.text == "module") then moduleRun ts i + 1 else 0

/-- The token at a position, if the run of `module` tokens before it is odd. -/
def declaredAt? (ts : List Token) (i : Nat) : Option Token :=
  if moduleRun ts i % 2 = 1 then ts[i]? else none

theorem declaredAt?_of_even (h : moduleRun ts i % 2 = 0) : declaredAt? ts i = none := by
  rw [declaredAt?, if_neg (by omega)]

theorem declaredAt?_of_odd (h : moduleRun ts i % 2 = 1) : declaredAt? ts i = ts[i]? := by
  rw [declaredAt?, if_pos h]

/-- A declared name stands behind a `module`. -/
theorem module_of_declaredAt?_succ {name : Token} (h : declaredAt? ts (i + 1) = some name) :
    ts[i]?.any (·.text == "module") = true := by
  rw [declaredAt?, moduleRun] at h
  split at h
  · next hmodule => exact hmodule
  · cases h

theorem moduleRun_append_cons (pre suf : List Token) (t : Token) :
    moduleRun (pre ++ t :: suf) (pre.length + 1) =
      if t.spells Token.moduleWord then moduleRun (pre ++ t :: suf) pre.length + 1 else 0 := by
  rw [moduleRun, getElem?_append_cons_length]
  rfl

/-- The pass from a position on that no `module` before it claims as its name. -/
theorem declarations_eq_filterMap_of_even (pre suf : List Token)
    (heven : moduleRun (pre ++ suf) pre.length % 2 = 0) :
    declarations suf =
      (List.range' pre.length suf.length).filterMap (declaredAt? (pre ++ suf)) := by
  fun_induction declarations suf generalizing pre with
  | case1 t name suf ht ih =>
    have hnext : moduleRun (pre ++ t :: name :: suf) (pre.length + 1) % 2 = 1 := by
      rw [moduleRun_append_cons, if_pos ht]
      omega
    -- whatever the name spells, an even run stands before the token behind it
    have hthen : moduleRun (pre ++ t :: name :: suf) (pre.length + 2) % 2 = 0 := by
      have h := moduleRun_append_cons (pre ++ [t]) suf name
      simp only [List.append_assoc, List.singleton_append, List.length_append,
        List.length_singleton] at h
      rw [h]
      split
      · omega
      · rfl
    have hname : declaredAt? (pre ++ t :: name :: suf) (pre.length + 1) = some name := by
      rw [declaredAt?_of_odd hnext, getElem?_append_cons_length_add]
      rfl
    have hrest := ih (pre ++ [t, name])
    simp only [List.append_assoc, List.cons_append, List.nil_append, List.length_append,
      List.length_cons, List.length_nil, Nat.zero_add] at hrest
    rw [filterMap_positions_cons, declaredAt?_of_even heven, filterMap_positions_cons, hname,
      hrest hthen]
    rfl
  | case2 t name suf ht ih =>
    have hnext : moduleRun (pre ++ t :: name :: suf) (pre.length + 1) % 2 = 0 := by
      rw [moduleRun_append_cons, if_neg ht]
    have hrest := ih (pre ++ [t])
    simp only [List.append_assoc, List.singleton_append, List.length_append,
      List.length_singleton] at hrest
    rw [filterMap_positions_cons, declaredAt?_of_even heven, hrest hnext]
    rfl
  | case3 suf h =>
    match suf, h with
    | [], _ => rfl
    | [t], _ =>
      rw [filterMap_positions_cons, declaredAt?_of_even heven]
      rfl
    | t :: name :: suf, h => exact absurd rfl (h t name suf)

/-- The declared names are the tokens behind an odd run of `module`, in order. -/
theorem declarations_eq_filterMap (ts : List Token) :
    declarations ts = (List.range ts.length).filterMap (declaredAt? ts) := by
  have h := declarations_eq_filterMap_of_even [] ts rfl
  rwa [List.nil_append, List.length_nil, ← List.range_eq_range'] at h

theorem mem_declarations_iff {name : Token} :
    name ∈ declarations ts ↔ ∃ i, declaredAt? ts i = some name := by
  rw [declarations_eq_filterMap, List.mem_filterMap]
  constructor
  · rintro ⟨i, -, hi⟩
    exact ⟨i, hi⟩
  · rintro ⟨i, hi⟩
    refine ⟨i, List.mem_range.2 ?_, hi⟩
    rw [declaredAt?] at hi
    split at hi
    · exact (List.getElem?_eq_some_iff.1 hi).1
    · cases hi

/-! ### Events -/

/-- What a token does to the module that is open. -/
inductive Event where
  /-- The open module is left. -/
  | closing
  /-- The module of this name is entered. -/
  | opening (name : Token)
deriving DecidableEq, Repr

/-- The event at a position: `endmodule`, or `module` in front of an identifier. -/
def event? (ts : List Token) (i : Nat) : Option Event :=
  match ts[i]? with
  | some t =>
    if t.text = "endmodule" then some .closing
    else if t.text = "module" then (ts[i + 1]?.filter (·.kind = .ident)).map .opening
    else none
  | none => none

/-- The events before a position, in order. -/
def eventsBefore (ts : List Token) (i : Nat) : List Event :=
  (List.range i).filterMap (event? ts)

/-- The name of the module that a position stands in: the last event before the position opens
it. -/
def owner? (ts : List Token) (i : Nat) : Option Token :=
  match (eventsBefore ts i).getLast? with
  | some (.opening name) => some name
  | _ => none

/-- The token at a position, if it is no event and the name of a module that is placed there: a
plain name and `(` follow, or `#(`. -/
def placedAt? (defs : List String) (ts : List Token) (i : Nat) : Option Token :=
  ts[i]?.filter fun t => event? ts i = none ∧ t.text ∈ defs ∧
    ((ts[i + 1]?.any (·.isPlainName) ∧ ts[i + 2]?.any (·.text == "(")) ∨
      ts[i + 1]?.any (·.text == "#("))

/-- What the second pass comes across at a position. -/
def findingAt? (defs : List String) (ts : List Token) (i : Nat) : Option Finding :=
  match event? ts i with
  | some .closing => none
  | some (.opening inner) => (owner? ts i).map fun outer => .unclosed outer inner
  | none =>
    (placedAt? defs ts i).bind fun child => (owner? ts i).map fun parent => .link ⟨parent, child⟩

theorem event?_append_cons (pre suf : List Token) (t : Token) :
    event? (pre ++ t :: suf) pre.length =
      if t.spells Token.endmoduleWord then some .closing else (header? t suf).map .opening := by
  rw [event?, getElem?_append_cons_length, getElem?_append_cons_length_add, header?]
  simp only [Token.spells, Token.endmoduleWord, Token.moduleWord, beq_iff_eq,
    List.head?_eq_getElem?]
  split
  · rfl
  · split <;> rfl

theorem placedAt?_append_cons (h : event? (pre ++ t :: suf) pre.length = none) :
    placedAt? defs (pre ++ t :: suf) pre.length = if places defs t suf then some t else none := by
  rw [placedAt?, h, getElem?_append_cons_length, getElem?_append_cons_length_add,
    getElem?_append_cons_length_add]
  cases suf with
  | nil => simp [places, continuesInstantiation]
  | cons next suf =>
    simp [places, continuesInstantiation, Option.filter, Token.spells, Token.overrideMark,
      List.head?_eq_getElem?]

theorem event?_of_placedAt? {child : Token} (h : placedAt? defs ts i = some child) :
    event? ts i = none := by
  have hp := (Option.filter_eq_some_iff.1 h).2
  exact (of_decide_eq_true hp).1

theorem opening_eq_some {j : Nat} {name : Token} (h : event? ts j = some (.opening name)) :
    ts[j]?.any (·.text == "module") = true ∧ ts[j + 1]? = some name := by
  rw [event?] at h
  split at h
  · next t ht =>
    split at h
    · cases h
    · split at h
      · next hmodule =>
        obtain ⟨next, hnext, hname⟩ := Option.map_eq_some_iff.1 h
        obtain rfl := Event.opening.inj hname
        refine ⟨?_, (Option.filter_eq_some_iff.1 hnext).1⟩
        rw [ht]
        simpa using hmodule
      · cases h
  · cases h

/-- An event is a `module` or an `endmodule`. -/
theorem module_or_endmodule_of_event? {e : Event} (h : event? ts i = some e) :
    ∃ t, ts[i]? = some t ∧ (t.text = "module" ∨ t.text = "endmodule") := by
  rw [event?] at h
  split at h
  · next t ht =>
    split at h
    · next hend => exact ⟨t, ht, .inr hend⟩
    · split at h
      · next hmodule => exact ⟨t, ht, .inl hmodule⟩
      · cases h
  · cases h

theorem exists_opening_of_owner? {i : Nat} {name : Token} (h : owner? ts i = some name) :
    ∃ j, event? ts j = some (.opening name) := by
  rw [owner?] at h
  split at h
  · next name' hlast =>
    obtain rfl := Option.some.inj h
    obtain ⟨j, -, hj⟩ := List.mem_filterMap.1 (List.mem_of_getLast? hlast)
    exact ⟨j, hj⟩
  · cases h

/-- An event decides where the next position stands; any other token leaves it. -/
theorem owner?_succ (ts : List Token) (i : Nat) :
    owner? ts (i + 1) =
      match event? ts i with
      | some (.opening name) => some name
      | some .closing => none
      | none => owner? ts i := by
  rw [owner?, eventsBefore, List.range_succ, List.filterMap_append]
  cases h : event? ts i with
  | none => simp [h, owner?, eventsBefore]
  | some e => cases e <;> simp [h]

/-! ### One step of the second pass -/

variable {current : Option Token}

theorem findingsFrom_of_closing (h : t.spells Token.endmoduleWord = true) :
    findingsFrom defs current (t :: suf) = findingsFrom defs none suf := by
  cases current <;> simp [findingsFrom, h]

theorem findingsFrom_of_opening {inner : Token} (hend : ¬ t.spells Token.endmoduleWord = true)
    (h : header? t suf = some inner) :
    findingsFrom defs current (t :: suf) =
      (current.map fun outer => Finding.unclosed outer inner).toList ++
        findingsFrom defs (some inner) suf := by
  cases current <;> simp [findingsFrom, hend, h]

theorem findingsFrom_of_body (hend : ¬ t.spells Token.endmoduleWord = true)
    (h : header? t suf = none) :
    findingsFrom defs current (t :: suf) =
      ((if places defs t suf then some t else none).bind fun child =>
        current.map fun parent => Finding.link ⟨parent, child⟩).toList ++
        findingsFrom defs current suf := by
  cases current <;> by_cases hp : places defs t suf <;> simp [findingsFrom, hend, h, hp]

/-! ### The whole second pass -/

theorem findingsFrom_eq_filterMap (defs : List String) (pre suf : List Token) :
    findingsFrom defs (owner? (pre ++ suf) pre.length) suf =
      (List.range' pre.length suf.length).filterMap (findingAt? defs (pre ++ suf)) := by
  induction suf generalizing pre with
  | nil => simp [findingsFrom]
  | cons t suf ih =>
    have hrest := ih (pre ++ [t])
    rw [List.append_assoc, List.singleton_append, List.length_append, List.length_singleton,
      owner?_succ] at hrest
    have hevent := event?_append_cons pre suf t
    rw [filterMap_positions_cons, findingAt?]
    by_cases hend : t.spells Token.endmoduleWord = true
    · -- the module is left
      rw [if_pos hend] at hevent
      rw [hevent] at hrest ⊢
      rw [findingsFrom_of_closing hend, ← hrest]
      rfl
    rw [if_neg hend] at hevent
    cases hh : header? t suf with
    | some inner =>
      -- another module is entered
      rw [hh, Option.map_some] at hevent
      rw [hevent] at hrest ⊢
      rw [findingsFrom_of_opening hend hh, ← hrest]
    | none =>
      -- no event, so the pass stays where it is
      rw [hh, Option.map_none] at hevent
      rw [hevent] at hrest
      rw [findingsFrom_of_body hend hh, placedAt?_append_cons hevent, hevent, hrest]

/-- The findings of the second pass are those of the positions, in order. -/
theorem findings_eq_filterMap (defs : List String) (ts : List Token) :
    findings defs ts = (List.range ts.length).filterMap (findingAt? defs ts) := by
  have h := findingsFrom_eq_filterMap defs [] ts
  rwa [List.nil_append, List.length_nil, ← List.range_eq_range'] at h

end ModuleHierarchy.Scan
