/-
ModuleHierarchy/Proofs/Source/Line.lean

The lines of a source by their numbers.  There is one line more than there are newlines
(`isSome_line?_iff`), and all that a line loses when it is looked up is the carriage returns at its
end.  With these put back, the lines from the first to the last one are the content:

    content = line 1 ++ \r...\r ++ \n ++ line 2 ++ \r...\r ++ \n ++ ... ++ line k ++ \r...\r

(`exists_returns`).  The tokens of the content are those of the lines one after the other, each with
the number that its line is looked up by (`ofText_content`).  So it makes no difference that the
tokenizer counts the lines of the text on its own.
-/
import ModuleHierarchy.Proofs.Token.Alike
import ModuleHierarchy.Source

namespace ModuleHierarchy

/-- Carriage returns at the end of a line are no tokens. -/
theorem Token.ofLine_dropTrailing {l : List Char} (hl : '\n' ∉ l) (n : Nat) :
    ofLine n (Text.dropTrailing (· == '\r') l) = ofLine n l := by
  obtain ⟨r, hr⟩ := Text.exists_dropTrailing_append_replicate '\r' l
  have hreturns : ∀ c ∈ List.replicate r '\r', Lexeme.isInert c = true := by
    intro c hc
    rw [List.eq_of_mem_replicate hc]
    decide
  have halike := Alike.append_inert hreturns (Text.dropTrailing (· == '\r') l)
  rw [← hr] at halike
  refine (halike.ofLine_eq hl fun hmem => hl ?_).symm
  rw [hr]
  exact List.mem_append_left _ hmem

namespace Source

variable {s : Source} {n : Nat} {l : List Char} {text : String}

/-- The number of lines, one more than the newlines. -/
def lineCount (s : Source) : Nat :=
  s.content.toList.count '\n' + 1

theorem length_lines (s : Source) : s.lines.length = s.lineCount :=
  Text.length_lines s.content.toList

/-! ### One line -/

theorem isSome_line?_iff (s : Source) (n : Nat) :
    (s.line? n).isSome = true ↔ 1 ≤ n ∧ n ≤ s.lineCount := by
  cases n with
  | zero => simp [line?]
  | succ n =>
    rw [line?, Option.isSome_map, isSome_getElem?, length_lines]
    omega

theorem exists_mem_lines_of_line? (h : s.line? n = some text) :
    ∃ l ∈ s.lines, text.toList = Text.dropTrailing (· == '\r') l := by
  cases n with
  | zero => cases h
  | succ n =>
    obtain ⟨l, hl, rfl⟩ := Option.map_eq_some_iff.1 h
    exact ⟨l, List.mem_of_getElem? hl, String.toList_ofList⟩

theorem newline_notMem_of_line? (h : s.line? n = some text) : '\n' ∉ text.toList := by
  obtain ⟨l, hl, htext⟩ := exists_mem_lines_of_line? h
  obtain ⟨r, hr, -⟩ := Text.exists_dropTrailing_append (· == '\r') l
  intro hmem
  apply Text.newline_notMem_of_mem_lines hl
  rw [hr, ← htext]
  exact List.mem_append_left r hmem

theorem getLast?_ne_of_line? (h : s.line? n = some text) : text.toList.getLast? ≠ some '\r' := by
  obtain ⟨l, -, htext⟩ := exists_mem_lines_of_line? h
  rw [htext]
  exact Text.getLast?_dropTrailing_ne '\r' l

/-- A newline behind the content opens one more line. -/
theorem line?_append_newline (s : Source) (n : Nat) :
    line? { s with content := s.content ++ "\n" } n =
      if n = s.lineCount + 1 then some "" else s.line? n := by
  cases n with
  | zero => rfl
  | succ n =>
    have hlines : lines { s with content := s.content ++ "\n" } = s.lines ++ [[]] := by
      rw [lines, String.toList_append]
      exact Text.lines_append_newline s.content.toList
    rw [line?, hlines, ← length_lines]
    split
    · next hn =>
      obtain rfl : n = s.lines.length := Nat.succ.inj hn
      rw [List.getElem?_concat_length]
      rfl
    · next hn =>
      have hget : (s.lines ++ [[]])[n]? = s.lines[n]? := by
        rcases Nat.lt_or_ge n s.lines.length with hlt | hge
        · exact List.getElem?_append_left hlt
        · rw [List.getElem?_eq_none hge, List.getElem?_eq_none]
          rw [List.length_append, List.length_singleton]
          omega
      rw [hget, line?]

/-! ### All lines -/

/-- The numbers of the lines, from 1 on. -/
def lineNumbers (s : Source) : List Nat :=
  List.range' 1 s.lineCount

theorem map_snd_zipIdx_lines (s : Source) : (s.lines.zipIdx 1).map Prod.snd = s.lineNumbers := by
  rw [List.zipIdx_map_snd, length_lines, lineNumbers]

theorem getElem?_of_mem_zipIdx (h : (l, n) ∈ s.lines.zipIdx 1) : s.lines[n - 1]? = some l :=
  (List.mk_mem_zipIdx_iff_le_and_getElem?_sub.1 h).2

theorem line?_of_mem_zipIdx (h : (l, n) ∈ s.lines.zipIdx 1) :
    s.line? n = some (String.ofList (Text.dropTrailing (· == '\r') l)) := by
  obtain ⟨hn, hl⟩ := List.mk_mem_zipIdx_iff_le_and_getElem?_sub.1 h
  obtain ⟨m, rfl⟩ := Nat.exists_eq_add_of_le' hn
  rw [Nat.add_sub_cancel] at hl
  rw [line?, hl, Option.map_some]

/-- The lines joined by newlines, with carriage returns put back behind each, are the content. -/
theorem exists_returns (s : Source) :
    ∃ returns : Nat → Nat, s.content = "\n".intercalate (s.lineNumbers.map fun n =>
      (s.line? n).getD "" ++ String.ofList (List.replicate (returns n) '\r')) := by
  choose trailing htrailing using Text.exists_dropTrailing_append_replicate '\r'
  refine ⟨fun n => s.lines[n - 1]?.elim 0 trailing, ?_⟩
  have hlines : (s.lineNumbers.map fun n => ((s.line? n).getD "" ++
      String.ofList (List.replicate (s.lines[n - 1]?.elim 0 trailing) '\r')).toList) = s.lines := by
    rw [← map_snd_zipIdx_lines, List.map_map]
    calc _ = (s.lines.zipIdx 1).map Prod.fst := by
          apply List.map_congr_left
          rintro ⟨l, n⟩ h
          show ((s.line? n).getD "" ++ _).toList = l
          rw [line?_of_mem_zipIdx h, getElem?_of_mem_zipIdx h, Option.getD_some, String.toList_append,
            String.toList_ofList, String.toList_ofList]
          exact (htrailing l).symm
      _ = s.lines := List.zipIdx_map_fst 1 s.lines
  rw [← String.toList_inj, String.toList_intercalate, List.map_map]
  exact ((congrArg (['\n'].intercalate ·) hlines).trans (List.intercalate_splitOn '\n')).symm

/-- The tokenizer counts the lines as they are counted here. -/
theorem ofText_content (s : Source) :
    Token.ofText s.content.toList = s.lineNumbers.flatMap fun n =>
      (s.line? n).elim [] fun text => Token.ofLine n text.toList := by
  rw [← map_snd_zipIdx_lines, List.flatMap_map]
  apply List.flatMap_congr
  rintro ⟨l, n⟩ h
  have hl : l ∈ s.lines := List.mem_of_getElem? (getElem?_of_mem_zipIdx h)
  show Token.ofLine n l = (s.line? n).elim [] fun text => Token.ofLine n text.toList
  rw [line?_of_mem_zipIdx h, Option.elim_some, String.toList_ofList]
  exact (Token.ofLine_dropTrailing (Text.newline_notMem_of_mem_lines hl) n).symm

/-- **The lines are the content.**  The numbers that have a line are those from 1 to one more than the
newlines.  A line has no newline and no carriage return at its end, and nothing else is lost: with
some number of carriage returns behind each, the lines joined by newlines are the content.  A newline
behind the content opens one more line, an empty one.  The tokens of the content are those of the
lines, with the same numbers. -/
theorem lines_spell_content (s : Source) :
    (∀ n, (s.line? n).isSome = true ↔ 1 ≤ n ∧ n ≤ s.lineCount) ∧
    (∀ n text, s.line? n = some text →
      '\n' ∉ text.toList ∧ text.toList.getLast? ≠ some '\r') ∧
    (∃ returns : Nat → Nat, s.content = "\n".intercalate (s.lineNumbers.map fun n =>
      (s.line? n).getD "" ++ String.ofList (List.replicate (returns n) '\r'))) ∧
    (∀ n, line? { s with content := s.content ++ "\n" } n =
      if n = s.lineCount + 1 then some "" else s.line? n) ∧
    Token.ofText s.content.toList = s.lineNumbers.flatMap fun n =>
      (s.line? n).elim [] fun text => Token.ofLine n text.toList :=
  ⟨isSome_line?_iff s, fun _ _ h => ⟨newline_notMem_of_line? h, getLast?_ne_of_line? h⟩,
    exists_returns s, line?_append_newline s, ofText_content s⟩

/-- Carriage returns behind a line are not quoted, and those before a line are. -/
theorem lines_spell_content_returns :
    let s : Source := ⟨"a.sv", "a\r\r\n\rb\r\n"⟩
    s.line? 2 = some "\rb" ∧ ('\n' ∉ "\rb".toList ∧ "\rb".toList.getLast? ≠ some '\r') ∧
      (s.line? 3).isSome = true ∧ (s.line? 4).isSome = false ∧
      line? { s with content := s.content ++ "\n" } 4 = some "" := by
  intro s
  obtain ⟨hsome, hends, -, happend, -⟩ := lines_spell_content s
  have htwo : s.line? 2 = some "\rb" := by decide +kernel
  have hcount : s.lineCount = 3 := by decide +kernel
  refine ⟨htwo, hends 2 "\rb" htwo, ?_, ?_, ?_⟩
  · rw [hsome, hcount]
    decide
  · rw [Bool.eq_false_iff, ne_eq, hsome, hcount]
    decide
  · rw [happend, hcount]
    rfl

end Source

end ModuleHierarchy
