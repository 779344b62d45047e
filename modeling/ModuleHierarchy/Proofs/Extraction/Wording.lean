/-
ModuleHierarchy/Proofs/Extraction/Wording.lean

What an extraction reads of its tokens.  Both passes and the assembly go by the texts of the tokens.
No line number is asked for, and of all kinds only one: whether the token behind a `module` is an
identifier.  So two lists of tokens that agree in that much (`SameWords`) are read in step.  One
lemma says it of each question that a pass asks (`SameWords.header?_text`, `SameWords.places_eq`), and
an induction along both lists carries it to the end:

    (findingsFrom defs current ts).map words = (findingsFrom defs current' us).map words

where `current` and `current'` have the same text.  The lines come in when a warning becomes a
diagnostic, in its location and in the note on a missing `endmodule`, and nowhere else
(`Warning.sameWording_diagnostic`).
-/
import Mathlib.Data.List.Forall2
import ModuleHierarchy.Proofs.Extraction.Keys

namespace ModuleHierarchy

/-! ### Diagnostics up to lines -/

/-- The segments say the same, up to the place of a location and the number of the line in the note
on a missing `endmodule`. -/
inductive Segment.SameWording : Segment → Segment → Prop
  | location (p q : Location) : SameWording (.location p) (.location q)
  | note (message : String) : SameWording (.note message) (.note message)
  | missing (name : String) (m n : Nat) :
      SameWording (.note s!"`{name}` (line {m}) is missing its `endmodule`")
        (.note s!"`{name}` (line {n}) is missing its `endmodule`")

/-- The diagnostics say the same, up to lines. -/
structure Diagnostic.SameWording (d e : Diagnostic) : Prop where
  severity : d.severity = e.severity
  message : d.message = e.message
  segments : List.Forall₂ Segment.SameWording d.segments e.segments

/-- The names in a warning. -/
def Warning.words : Warning → String ⊕ String × String
  | redefined name => .inl name.text
  | unclosed outer inner => .inr (outer.text, inner.text)

/-- Warnings with the same names become diagnostics that say the same, whatever the sources. -/
theorem Warning.sameWording_diagnostic {v w : Warning} (h : v.words = w.words) (s₁ s₂ : Source) :
    (v.diagnostic s₁).SameWording (w.diagnostic s₂) := by
  cases v with
  | redefined name =>
    cases w with
    | redefined name' =>
      have hname : name.text = name'.text := Sum.inl.inj h
      refine ⟨rfl, ?_, .cons (.location _ _) (.cons (.note _) .nil)⟩
      simp [diagnostic, message, hname]
    | unclosed outer inner => cases h
  | unclosed outer inner =>
    cases w with
    | redefined name => cases h
    | unclosed outer' inner' =>
      obtain ⟨houter, hinner⟩ := Prod.mk.inj (Sum.inr.inj h)
      refine ⟨rfl, ?_, .cons (.location _ _) (.cons ?_ (.cons ?_ .nil))⟩
      · simp [diagnostic, message, houter, hinner]
      · rw [houter]
        exact .missing _ _ _
      · rw [hinner]
        exact .note _

/-! ### Tokens with the same words -/

namespace Scan

/-- The tokens have the same texts, and behind each `module` both or neither is an identifier. -/
inductive SameWords : List Token → List Token → Prop
  | nil : SameWords [] []
  | cons {t u : Token} {ts us : List Token} (htext : t.text = u.text)
      (hname : t.text = "module" →
        ts.head?.any (·.kind = .ident) = us.head?.any (·.kind = .ident))
      (h : SameWords ts us) : SameWords (t :: ts) (u :: us)

variable {defs : List String} {t u : Token} {ts us : List Token}

theorem sameWords_of_positions (htexts : ts.map Token.text = us.map Token.text)
    (hnames : ∀ i < ts.length, ts[i]?.any (·.text = "module") →
      ts[i + 1]?.any (·.kind = .ident) = us[i + 1]?.any (·.kind = .ident)) :
    SameWords ts us := by
  induction ts generalizing us with
  | nil =>
    obtain rfl := List.map_eq_nil_iff.1 htexts.symm
    exact .nil
  | cons t ts ih =>
    cases us with
    | nil => cases htexts
    | cons u us =>
      obtain ⟨htext, htexts⟩ := List.cons.inj htexts
      refine .cons htext (fun hmodule => ?_) (ih htexts fun i hi hmodule => ?_)
      · have h := hnames 0 (Nat.zero_lt_succ _) (by simpa using hmodule)
        simpa [List.head?_eq_getElem?] using h
      · have h := hnames (i + 1) (Nat.succ_lt_succ hi) (by simpa using hmodule)
        simpa using h

theorem SameWords.spells_eq (htext : t.text = u.text) (word : String) :
    t.spells word = u.spells word := by
  rw [Token.spells, Token.spells, htext]

theorem SameWords.isPlainName_eq (htext : t.text = u.text) : t.isPlainName = u.isPlainName := by
  rw [Token.isPlainName, Token.isPlainName, htext]

/-! ### The first pass -/

theorem SameWords.declarations (h : SameWords ts us) :
    (Scan.declarations ts).map Token.text = (Scan.declarations us).map Token.text := by
  fun_induction Scan.declarations ts generalizing us with
  | case1 t name ts ht ih =>
    obtain _ | @⟨_, u, _, _, htext, -, _ | @⟨_, name', _, us, hname, -, h⟩⟩ := h
    rw [Scan.declarations, if_pos (spells_eq htext _ ▸ ht), List.map_cons, List.map_cons, hname, ih h]
  | case2 t name ts ht ih =>
    obtain _ | @⟨_, u, _, _, htext, -, h⟩ := h
    have hrest := ih h
    obtain _ | @⟨_, name', _, us, hname, -, h⟩ := h
    rw [Scan.declarations, if_neg (spells_eq htext _ ▸ ht), hrest]
  | case3 ts hts =>
    obtain _ | @⟨t, u, _, _, htext, -, _ | _⟩ := h
    · rfl
    · rfl
    · exact absurd rfl (hts _ _ _)

theorem repeated_congr (htexts : ts.map Token.text = us.map Token.text) (seen : List String) :
    (repeated seen ts).map Token.text = (repeated seen us).map Token.text := by
  induction ts generalizing us seen with
  | nil =>
    obtain rfl := List.map_eq_nil_iff.1 htexts.symm
    rfl
  | cons t ts ih =>
    cases us with
    | nil => cases htexts
    | cons u us =>
      obtain ⟨htext, htexts⟩ := List.cons.inj htexts
      rw [repeated, repeated, htext]
      split
      · rw [List.map_cons, List.map_cons, htext, ih htexts]
      · exact ih htexts _

/-! ### The second pass -/

theorem SameWords.header?_text (htext : t.text = u.text)
    (hname : t.text = "module" →
      ts.head?.any (·.kind = .ident) = us.head?.any (·.kind = .ident)) (h : SameWords ts us) :
    (header? t ts).map Token.text = (header? u us).map Token.text := by
  rw [header?, header?, spells_eq htext]
  split
  · next hmodule =>
    have hkind := hname (htext.trans (eq_of_beq hmodule))
    cases h with
    | nil => rfl
    | @cons t' u' _ _ htext' _ _ =>
      simp only [List.head?_cons, Option.any_some, decide_eq_decide] at hkind
      by_cases hident : t'.kind = .ident
      · simp [Option.filter_some, hident, hkind.1 hident, htext']
      · simp [Option.filter_some, hident, mt hkind.2 hident]
  · rfl

theorem SameWords.continuesInstantiation_eq (h : SameWords ts us) :
    continuesInstantiation ts = continuesInstantiation us := by
  cases h with
  | nil => rfl
  | cons htext _ h =>
    rw [continuesInstantiation, continuesInstantiation, isPlainName_eq htext, spells_eq htext]
    cases h with
    | nil => rfl
    | cons htext' _ _ => simp only [List.head?_cons, Option.any_some, spells_eq htext']

theorem SameWords.places_eq (htext : t.text = u.text) (h : SameWords ts us) :
    places defs t ts = places defs u us := by
  rw [places, places, htext, h.continuesInstantiation_eq]

/-- The names in a finding. -/
def Finding.words : Finding → String × String ⊕ String × String
  | link l => .inl l.names
  | unclosed outer inner => .inr (outer.text, inner.text)

theorem map_words_unclosed (current : Option Token) (inner : Token) :
    (current.map fun outer => Finding.unclosed outer inner).toList.map Finding.words =
      ((current.map Token.text).map fun outer => .inr (outer, inner.text)).toList := by
  cases current <;> rfl

theorem map_words_link (placed : Bool) (t : Token) (current : Option Token) :
    ((if placed then some t else none).bind fun child =>
        current.map fun parent => Finding.link ⟨parent, child⟩).toList.map Finding.words =
      ((if placed then some t.text else none).bind fun child =>
        (current.map Token.text).map fun parent => .inl (parent, child)).toList := by
  cases placed <;> cases current <;> rfl

theorem SameWords.findingsFrom (h : SameWords ts us) {current current' : Option Token}
    (hcurrent : current.map Token.text = current'.map Token.text) :
    (Scan.findingsFrom defs current ts).map Finding.words =
      (Scan.findingsFrom defs current' us).map Finding.words := by
  induction h generalizing current current' with
  | nil => simp [Scan.findingsFrom]
  | @cons t u ts us htext hname h ih =>
    by_cases hend : t.spells Token.endmoduleWord = true
    · -- both leave their module
      have hend' : u.spells Token.endmoduleWord = true := spells_eq htext _ ▸ hend
      rw [findingsFrom_of_closing hend, findingsFrom_of_closing hend', ih rfl]
    have hend' : ¬ u.spells Token.endmoduleWord = true := spells_eq htext _ ▸ hend
    have hheader := header?_text htext hname h
    cases ht : header? t ts with
    | some inner =>
      -- both enter a module of one name
      rw [ht, Option.map_some] at hheader
      obtain ⟨inner', hu, hinner⟩ := Option.map_eq_some_iff.1 hheader.symm
      have hopen : (some inner).map Token.text = (some inner').map Token.text :=
        congrArg some hinner.symm
      rw [findingsFrom_of_opening hend ht, findingsFrom_of_opening hend' hu, List.map_append,
        List.map_append, ih hopen, map_words_unclosed, map_words_unclosed, hcurrent, hinner]
    | none =>
      -- both stay where they are, and find an instantiation or not
      rw [ht, Option.map_none] at hheader
      have hu := Option.map_eq_none_iff.1 hheader.symm
      rw [findingsFrom_of_body hend ht, findingsFrom_of_body hend' hu, List.map_append,
        List.map_append, ih hcurrent, map_words_link, map_words_link, hcurrent, htext,
        places_eq htext h]

theorem SameWords.findings (h : SameWords ts us) (defs : List String) :
    (Scan.findings defs ts).map Finding.words = (Scan.findings defs us).map Finding.words :=
  h.findingsFrom rfl

/-- The names of the links are among the names of the findings. -/
theorem map_names_links (defs : List String) (ts : List Token) :
    (links defs ts).map Link.names =
      ((findings defs ts).map Finding.words).filterMap Sum.getLeft? := by
  rw [links, List.map_filterMap, List.filterMap_map]
  refine List.filterMap_congr fun f _ => ?_
  cases f <;> rfl

theorem map_words_unclosedModules (defs : List String) (ts : List Token) :
    (unclosedModules defs ts).map Warning.words =
      (((findings defs ts).map Finding.words).filterMap Sum.getRight?).map .inr := by
  rw [unclosedModules, List.map_filterMap, List.filterMap_map, List.map_filterMap]
  refine List.filterMap_congr fun f _ => ?_
  cases f <;> rfl

/-! ### Both passes and the assembly -/

theorem SameWords.definitions (h : SameWords ts us) : Scan.definitions ts = Scan.definitions us := by
  rw [Scan.definitions, Scan.definitions, h.declarations]

theorem SameWords.defineDeclared (h : SameWords ts us) (g : Hierarchy) :
    Scan.defineDeclared ts g = Scan.defineDeclared us g := by
  rw [Scan.defineDeclared, Scan.defineDeclared, h.declarations]

theorem SameWords.addInstantiations (h : SameWords ts us) (defs : List String) (g : Hierarchy) :
    Scan.addInstantiations defs ts g = Scan.addInstantiations defs us g := by
  rw [Scan.addInstantiations, Scan.addInstantiations, addLinks_eq_addEdges, addLinks_eq_addEdges,
    map_names_links, map_names_links, h.findings]

theorem map_words_redefinitions (ts : List Token) :
    (redefinitions ts).map Warning.words =
      ((repeated [] (declarations ts)).map Token.text).map .inl := by
  rw [redefinitions, List.map_map, List.map_map]
  rfl

end Scan

namespace Extraction

variable {ts us : List Token} {g : Hierarchy}

theorem hierarchy_ofTokens_congr (h : Scan.SameWords ts us) (g : Hierarchy) :
    (ofTokens ts g).hierarchy = (ofTokens us g).hierarchy := by
  show (Scan.addInstantiations _ ts (Scan.defineDeclared ts g)).assemble _ =
    (Scan.addInstantiations _ us (Scan.defineDeclared us g)).assemble _
  rw [h.definitions, h.defineDeclared, h.addInstantiations]

theorem map_words_warnings (h : Scan.SameWords ts us) (g : Hierarchy) :
    (ofTokens ts g).warnings.map Warning.words = (ofTokens us g).warnings.map Warning.words := by
  show (Scan.redefinitions ts ++ Scan.unclosedModules _ ts).map Warning.words =
    (Scan.redefinitions us ++ Scan.unclosedModules _ us).map Warning.words
  rw [List.map_append, List.map_append, Scan.map_words_redefinitions,
    Scan.map_words_redefinitions, Scan.repeated_congr h.declarations,
    Scan.map_words_unclosedModules, Scan.map_words_unclosedModules, h.definitions, h.findings]

/-- **Only words are read.**  Let two lists of tokens have the same texts, on any lines and of any
kinds, but such that behind each `module` both have an identifier or neither.  Into the same
hierarchy, and whatever the sources, both are extracted with the same definitions and to the same
hierarchy, and their diagnostics agree one by one in severity, message and segments, up to the
places of the locations and the line in the note on a missing `endmodule`. -/
theorem sameWording_ofTokens (htexts : ts.map Token.text = us.map Token.text)
    (hnames : ∀ i < ts.length, ts[i]?.any (·.text = "module") →
      ts[i + 1]?.any (·.kind = .ident) = us[i + 1]?.any (·.kind = .ident))
    (g : Hierarchy) (s₁ s₂ : Source) :
    (ofTokens ts g).definitions = (ofTokens us g).definitions ∧
      (ofTokens ts g).hierarchy = (ofTokens us g).hierarchy ∧
      List.Forall₂ Diagnostic.SameWording ((ofTokens ts g).diagnostics s₁)
        ((ofTokens us g).diagnostics s₂) := by
  have h := Scan.sameWords_of_positions htexts hnames
  refine ⟨h.definitions, hierarchy_ofTokens_congr h g, ?_⟩
  have hwords : List.Forall₂ (fun v w => v.words = w.words) (ofTokens ts g).warnings
      (ofTokens us g).warnings := by
    have heq := map_words_warnings h g
    rwa [← List.forall₂_eq_eq_eq, List.forall₂_map_left_iff, List.forall₂_map_right_iff] at heq
  rw [diagnostics, diagnostics, List.forall₂_map_left_iff, List.forall₂_map_right_iff]
  exact hwords.imp fun _ _ hw => Warning.sameWording_diagnostic hw s₁ s₂

/-- A name that is a number in one list and a symbol in the other is declared all the same, and does
not start a module.  The lines of the second list run backwards. -/
theorem sameWording_ofTokens_relabelled :
    let ts : List Token := [⟨.keyword, "module", 1⟩, ⟨.ident, "a", 1⟩, ⟨.keyword, "module", 2⟩,
      ⟨.number, "b", 2⟩, ⟨.ident, "u", 3⟩, ⟨.symbol, "(", 3⟩, ⟨.keyword, "module", 4⟩,
      ⟨.ident, "a", 4⟩, ⟨.ident, "b", 5⟩, ⟨.paramOpen, "#(", 5⟩]
    let us : List Token := [⟨.symbol, "module", 9⟩, ⟨.ident, "a", 8⟩, ⟨.ident, "module", 8⟩,
      ⟨.symbol, "b", 7⟩, ⟨.keyword, "u", 6⟩, ⟨.number, "(", 6⟩, ⟨.keyword, "module", 5⟩,
      ⟨.ident, "a", 0⟩, ⟨.number, "b", 0⟩, ⟨.ident, "#(", 0⟩]
    let g : Hierarchy := .ofEntries [⟨"c", ["a"]⟩]
    (ofTokens ts g).definitions = (ofTokens us g).definitions ∧
      (ofTokens ts g).hierarchy = (ofTokens us g).hierarchy ∧
      (ofTokens us g).hierarchy = .ofEntries [⟨"a", ["b"]⟩, ⟨"b", []⟩, ⟨"c", ["a"]⟩] ∧
      (ofTokens us g).warnings.length = 2 ∧
      List.Forall₂ Diagnostic.SameWording ((ofTokens ts g).diagnostics ⟨"top.sv", ""⟩)
        ((ofTokens us g).diagnostics ⟨"other.sv", "module"⟩) := by
  intro ts us g
  have htexts : ts.map Token.text = us.map Token.text := by decide
  obtain ⟨hdefinitions, hhierarchy, hdiagnostics⟩ := sameWording_ofTokens htexts (by decide) g
    ⟨"top.sv", ""⟩ ⟨"other.sv", "module"⟩
  exact ⟨hdefinitions, hhierarchy, by decide, by decide, hdiagnostics⟩

end Extraction

end ModuleHierarchy
