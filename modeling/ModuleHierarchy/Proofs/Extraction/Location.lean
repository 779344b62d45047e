/-
ModuleHierarchy/Proofs/Extraction/Location.lean

Where tokens and diagnostics of a source point.  A token carries the number of a line of the
original text, although it is cut from a text that lost its comments, its no-break spaces and the
ends of its lines.  No step on the way moves a newline, and none adds a character that a token
may be spelled with.  So a token is spelled by characters of its line, in order
(`exists_line_of_mem_tokens`).

The subject of each warning is a token of the source (`subject_mem_of_mem_warnings`), and a
diagnostic points at the line of its subject.  `locations_extract` puts both together.
-/
import ModuleHierarchy.Extraction
import ModuleHierarchy.Proofs.Scan.Position
import ModuleHierarchy.Proofs.Token.Spelling

namespace ModuleHierarchy

variable {ts : List Token} {t : Token} {w : Warning} {s : Source}

/-! ### Subjects of warnings -/

namespace Scan

theorem repeated_subset (seen : List String) (ts : List Token) : repeated seen ts ⊆ ts := by
  fun_induction repeated seen ts with
  | case1 => exact List.Subset.refl _
  | case2 seen t ts _ ih => exact List.cons_subset_cons t ih
  | case3 seen t ts _ ih => exact fun u hu => List.mem_cons_of_mem t (ih hu)

theorem subject_mem_of_mem_redefinitions (h : w ∈ redefinitions ts) : w.subject ∈ ts := by
  obtain ⟨name, hname, rfl⟩ := List.mem_map.1 h
  obtain ⟨i, hi⟩ := mem_declarations_iff.1 (repeated_subset _ _ hname)
  rw [declaredAt?] at hi
  split at hi
  · exact List.mem_of_getElem? hi
  · cases hi

theorem event?_of_unclosed {defs : List String} {i : Nat} {outer inner : Token}
    (h : findingAt? defs ts i = some (.unclosed outer inner)) :
    event? ts i = some (.opening inner) := by
  rw [findingAt?] at h
  split at h
  · cases h
  · next hevent =>
    obtain ⟨_, -, heq⟩ := Option.map_eq_some_iff.1 h
    obtain ⟨-, rfl⟩ := Finding.unclosed.inj heq
    exact hevent
  · obtain ⟨_, -, hlink⟩ := Option.bind_eq_some_iff.1 h
    obtain ⟨_, -, heq⟩ := Option.map_eq_some_iff.1 hlink
    cases heq

/-- The subject of the warning is the name of a module that is entered. -/
theorem exists_opening_of_mem_unclosedModules {defs : List String}
    (h : w ∈ unclosedModules defs ts) : ∃ i, event? ts i = some (.opening w.subject) := by
  obtain ⟨f, hf, hw⟩ := List.mem_filterMap.1 h
  rw [findings_eq_filterMap] at hf
  obtain ⟨i, -, hi⟩ := List.mem_filterMap.1 hf
  cases f with
  | link l => cases hw
  | unclosed outer inner =>
    obtain rfl := Option.some.inj hw
    exact ⟨i, event?_of_unclosed hi⟩

theorem subject_mem_of_mem_unclosedModules {defs : List String}
    (h : w ∈ unclosedModules defs ts) : w.subject ∈ ts := by
  obtain ⟨i, hi⟩ := exists_opening_of_mem_unclosedModules h
  exact List.mem_of_getElem? (opening_eq_some hi).2

end Scan

theorem Extraction.subject_mem_of_mem_warnings {h : Hierarchy}
    (hw : w ∈ (ofTokens ts h).warnings) : w.subject ∈ ts := by
  rcases List.mem_append.1 hw with hw | hw
  · exact Scan.subject_mem_of_mem_redefinitions hw
  · exact Scan.subject_mem_of_mem_unclosedModules hw

/-- The message of a warning starts with the module that it is about. -/
theorem Warning.isPrefix_message (w : Warning) :
    ("module `" ++ w.subject.text ++ "`").toList <+: w.message.toList := by
  have happend (a b : String) : a.toList <+: (a ++ b).toList := by
    rw [String.toList_append]
    exact List.prefix_append _ _
  have hquote (name rest : String) : ("module `" ++ name ++ "`").toList <+:
      ("module `" ++ name ++ ("`" ++ rest)).toList := by
    rw [← String.append_assoc]
    exact happend _ rest
  cases w with
  | redefined name => exact hquote name.text " is defined more than once"
  | unclosed outer inner =>
    have h := hquote inner.text " starts before module `"
    exact (h.trans (happend _ outer.text)).trans (happend _ "` is closed")

/-! ### Lines of a source -/

namespace Source

/-- A token is spelled by characters of its line in the original text, in order. -/
theorem exists_line_of_mem_tokens (h : t ∈ s.tokens) :
    1 ≤ t.line ∧ t.line ≤ s.content.toList.count '\n' + 1 ∧
      ∃ text, s.line? t.line = some text ∧ t.text.toList.Sublist text.toList := by
  obtain ⟨k, code, hline, hcode, hsub, hsolid⟩ := Token.exists_line_of_mem_ofText h
  -- back through the removal of comments
  obtain ⟨spaced, hspaced, hthin⟩ :=
    Text.exists_getElem?_of_forall₂ (Comment.thinned_strip _).lines hcode
  -- back through the replacement of no-break spaces
  rw [Text.lines_map, List.getElem?_map] at hspaced
  obtain ⟨original, horiginal, rfl⟩ := Option.map_eq_some_iff.1 hspaced
  have hin : t.text.toList.Sublist original := by
    refine hsolid.sublist_of_map (fun c => ?_) (hsub.trans hthin)
    rw [Text.plainSpace]
    split
    · exact .inr rfl
    · exact .inl rfl
  have hk : k < (s.content.toList.splitOn '\n').length :=
    (List.getElem?_eq_some_iff.1 horiginal).1
  rw [Text.length_lines] at hk
  rw [hline]
  refine ⟨Nat.le_add_left _ _, hk, String.ofList (Text.dropTrailing (· == '\r') original), ?_, ?_⟩
  · rw [line?, lines, horiginal, Option.map_some]
  · rw [String.toList_ofList]
    refine hsolid.sublist_dropTrailing (fun c hc => ?_) hin
    obtain rfl := eq_of_beq hc
    rfl
  · exact fun c => Text.plainSpace_eq_iff (by decide) (by decide)

/-- **Locations point at the right line.**  The line numbers of the tokens of a source never go
down, each is the number of a line of the source, and the characters of a token stand on its
line, in order.  Each diagnostic starts with the location of a module that its message names, and
the source has that line, with the characters of the name in order. -/
theorem locations_extract (s : Source) :
    (s.tokens.map Token.line).Pairwise (· ≤ ·) ∧
      (∀ t ∈ s.tokens, 1 ≤ t.line ∧ t.line ≤ s.content.toList.count '\n' + 1 ∧
        ∃ text, s.line? t.line = some text ∧ t.text.toList.Sublist text.toList) ∧
      ∀ d ∈ s.extract.diagnostics s, ∃ name ∈ s.tokens, ∃ text,
        ("module `" ++ name.text ++ "`").toList <+: d.message.toList ∧
          d.segments.head? = some (.location ⟨s, name.line⟩) ∧
          (Location.mk s name.line).text? = some text ∧
          name.text.toList.Sublist text.toList := by
  refine ⟨List.pairwise_map.2 (Token.pairwise_line_ofText s.code), ?_, ?_⟩
  · intro t ht
    exact exists_line_of_mem_tokens ht
  · intro d hd
    obtain ⟨w, hw, rfl⟩ := List.mem_map.1 hd
    have hsubject := Extraction.subject_mem_of_mem_warnings hw
    obtain ⟨-, -, text, htext, hsub⟩ := exists_line_of_mem_tokens hsubject
    exact ⟨w.subject, hsubject, text, w.isPrefix_message, rfl, htext, hsub⟩

theorem locations_extract_module_twice :
    let s : Source := ⟨"top.sv", "module a; /*\n*/ endmodule\nmodule a;\r\nendmodule"⟩
    let d := (Warning.redefined ⟨.ident, "a", 3⟩).diagnostic s
    ⟨.keyword, "endmodule", 2⟩ ∈ s.tokens ∧ d ∈ s.extract.diagnostics s ∧
      (∃ text, s.line? 2 = some text ∧ "endmodule".toList.Sublist text.toList) ∧
      ∃ name ∈ s.tokens, ∃ text, d.segments.head? = some (.location ⟨s, name.line⟩) ∧
        (Location.mk s name.line).text? = some text ∧ name.text.toList.Sublist text.toList := by
  intro s d
  have ht : ⟨.keyword, "endmodule", 2⟩ ∈ s.tokens := by decide
  have hd : d ∈ s.extract.diagnostics s := by decide
  obtain ⟨-, htoken, hdiagnostic⟩ := locations_extract s
  obtain ⟨name, hname, text, -, hplace, htext, hsub⟩ := hdiagnostic d hd
  exact ⟨ht, hd, (htoken _ ht).2.2, name, hname, text, hplace, htext, hsub⟩

end Source

end ModuleHierarchy
