/-
ModuleHierarchy/Proofs/Comment/Slice.lean

The removal of comments by slices of the text.  Each of the two runs is a loop over what is left of
the text: a round looks for the next comment, puts out what stands before it and goes on behind it,
and the last round finds no comment.  All places are byte indices, some of them relative to the
place of a mark.

Every slice of a round is defined, and a round that is not the last leaves a text with fewer bytes
(`round_blockRound`, `round_lineRound`); this is why the loops end.  What they put out is what the
runs over the characters leave:

    blockLoop.run "" text = .ok (String.ofList (stripBlocks text.toList))    (`run_blockLoop`)
    lineLoop.run "" text = .ok (String.ofList (stripLines text.toList))      (`run_lineLoop`).
-/
import ModuleHierarchy.Proofs.Comment.Piece
import ModuleHierarchy.Proofs.Text.Slice

namespace ModuleHierarchy.Comment

open Text

variable {c m p r t : List Char} {rest kept left : String} {f : List Char → List Char}

/-! ### Loops -/

/-- A loop over what is left of a text.  A round puts some text out and leaves a shorter one, or it
is the last one and does nothing. -/
structure Loop where
  round : String → Except BadSlice (Option (String × String))
  shorter : ∀ {rest kept left}, round rest = .ok (some (kept, left)) →
    left.utf8ByteSize < rest.utf8ByteSize

/-- All that the loop puts out, behind `out`.  The last round is followed by what is left. -/
def Loop.run (l : Loop) (out rest : String) : Except BadSlice String :=
  match _hround : l.round rest with
  | .error e => .error e
  | .ok none => .ok (out ++ rest)
  | .ok (some (kept, left)) => l.run (out ++ kept) left
termination_by rest.utf8ByteSize
decreasing_by exact l.shorter _hround

/-- What a round comes to if the loop is to compute `f`.  The last round finds a text that `f` does
not change; any other round puts out the start of what `f` makes of the text. -/
inductive Round (f : List Char → List Char) (rest : String) :
    Except BadSlice (Option (String × String)) → Prop
  | last (hf : f rest.toList = rest.toList) : Round f rest (.ok none)
  | next {kept left : String} (hlt : left.utf8ByteSize < rest.utf8ByteSize)
      (hf : f rest.toList = kept.toList ++ f left.toList) : Round f rest (.ok (some (kept, left)))

theorem Round.lt (h : Round f rest (.ok (some (kept, left)))) :
    left.utf8ByteSize < rest.utf8ByteSize := by
  cases h with
  | next hlt _ => exact hlt

/-- All slices of a round are defined. -/
theorem Round.yields {result : Except BadSlice (Option (String × String))}
    (h : Round f rest result) :
    Yields result fun r => ∀ x ∈ r, x.2.utf8ByteSize < rest.utf8ByteSize := by
  cases h with
  | last _ => exact ⟨none, rfl, fun x hx => absurd hx (Option.not_mem_none x)⟩
  | next hlt _ =>
    refine ⟨_, rfl, fun x hx => ?_⟩
    obtain rfl := Option.some.inj hx
    exact hlt

theorem Loop.run_eq {l : Loop} (h : ∀ rest, Round f rest (l.round rest)) (out rest : String) :
    l.run out rest = .ok (out ++ String.ofList (f rest.toList)) := by
  have hcase {rest result} (hround : l.round rest = result) : Round f rest result :=
    hround ▸ h rest
  fun_induction Loop.run l out rest with
  | case1 out rest e hround => cases hcase hround
  | case2 out rest hround =>
    cases hcase hround with
    | last hf => rw [hf, String.ofList_toList]
  | case3 out rest kept left hround ih =>
    cases hcase hround with
    | next _ hf => rw [ih, hf, String.ofList_append, String.ofList_toList, String.append_assoc]

/-! ### First marks -/

theorem clear_of_forall (h : ∀ a b, p = a ++ b → b ≠ [] → ¬ m <+: b ++ r) : Clear m r p := by
  induction p with
  | nil => trivial
  | cons x p ih =>
    refine ⟨h [] (x :: p) rfl (List.cons_ne_nil x p), ih ?_⟩
    rintro a b rfl hb
    exact h (x :: a) b rfl hb

theorem notInfix_of_forall (hm : m ≠ []) (h : ∀ a b, p = a ++ b → b ≠ [] → ¬ m <+: b ++ r) :
    ¬ m <:+: p := by
  rintro ⟨a, b, hp⟩
  rw [List.append_assoc] at hp
  refine h a (m ++ b) hp.symm (List.append_ne_nil_of_left_ne_nil hm b) ?_
  rw [List.append_assoc]
  exact List.prefix_append m _

/-! ### Block comments -/

/-- One round of the removal of block comments. -/
def blockRound (rest : String) : Except BadSlice (Option (String × String)) :=
  match find? "/*" rest with
  | none => .ok none
  | some start => do
    let behind ← sliceFrom rest (start + 2)
    match find? "*/" behind with
    | none => return none
    | some len =>
      let stop := start + 2 + len + 2
      let before ← sliceTo rest start
      let comment ← slice rest start stop
      let left ← sliceFrom rest stop
      return some (before ++ String.ofList (comment.toList.filter (· == '\n')), left)

theorem sliceFrom_behind_opener (hrest : rest.toList = p ++ opener ++ t) :
    sliceFrom rest (size p + 2) = .ok (String.ofList t) := by
  have hslice := sliceFrom_eq hrest
  rwa [size_append] at hslice

theorem blockRound_of_not_closed (hrest : rest.toList = p ++ opener ++ t)
    (hopen : find? "/*" rest = some (size p)) (hclose : find? "*/" (String.ofList t) = none) :
    blockRound rest = .ok none := by
  simp only [blockRound, hopen, sliceFrom_behind_opener hrest, ok_bind, hclose]
  rfl

theorem blockRound_of_closed (hrest : rest.toList = p ++ opener ++ c ++ closer ++ r)
    (hopen : find? "/*" rest = some (size p))
    (hclose : find? "*/" (String.ofList (c ++ closer ++ r)) = some (size c)) :
    blockRound rest =
      .ok (some (String.ofList (p ++ c.filter (· == '\n')), String.ofList r)) := by
  have hbehind : sliceFrom rest (size p + 2) = .ok (String.ofList (c ++ closer ++ r)) :=
    sliceFrom_behind_opener (by simpa only [List.append_assoc] using hrest)
  replace hrest : rest.toList = p ++ (opener ++ c ++ closer) ++ r := by
    simpa only [List.append_assoc] using hrest
  have hstop : size p + 2 + size c + 2 = size p + size (opener ++ c ++ closer) := by
    rw [size_append, size_append]
    show size p + 2 + size c + 2 = size p + (2 + size c + 2)
    omega
  have hbefore := sliceTo_eq (hrest.trans (List.append_assoc _ _ _))
  have hcomment := slice_eq hrest
  have hleft := sliceFrom_eq hrest
  have hnewlines : (opener ++ c ++ closer).filter (· == '\n') = c.filter (· == '\n') := by
    rw [List.filter_append, List.filter_append]
    exact List.append_nil _
  rw [← hstop] at hcomment
  rw [size_append, ← hstop] at hleft
  simp only [blockRound, hopen, hbehind, ok_bind, hclose, hbefore, hcomment, hleft,
    String.toList_ofList, hnewlines, ← String.ofList_append]
  rfl

theorem round_blockRound (rest : String) : Round stripBlocks rest (blockRound rest) := by
  cases hopen : find? "/*" rest with
  | none =>
    rw [blockRound, hopen]
    exact .last (stripBlocks_eq_self (find?_eq_none rfl rfl hopen))
  | some start =>
    obtain ⟨p, t, hrest, rfl, hp⟩ := find?_eq_some (m := opener) rfl rfl (by decide) hopen
    cases hclose : find? "*/" (String.ofList t) with
    | none =>
      have hno : ¬ closer <:+: t := find?_eq_none rfl String.toList_ofList hclose
      rw [blockRound_of_not_closed hrest hopen hclose]
      refine .last ?_
      rw [hrest, List.append_assoc, stripBlocks, stripBlocksFrom_code_append (clear_of_forall hp)]
      exact congrArg (p ++ ·) (stripBlocks_of_not_closed hno)
    | some len =>
      obtain ⟨c, r, rfl, rfl, hc⟩ :=
        find?_eq_some (m := closer) rfl String.toList_ofList (by decide) hclose
      simp only [← List.append_assoc] at hrest
      rw [blockRound_of_closed hrest hopen hclose]
      refine .next ?_ ?_
      · rw [utf8ByteSize_eq_size rest, hrest, size_append, utf8ByteSize_ofList]
        refine Nat.lt_add_of_pos_left (size_pos ?_)
        simp [closer]
      · have hp' : ¬ opener <:+: p := notInfix_of_forall (by decide) hp
        have hc' : ¬ closer <:+: c := notInfix_of_forall (by decide) hc
        rw [hrest, stripBlocks_block hp' hc', String.toList_ofList, String.toList_ofList]

/-- The removal of block comments. -/
def blockLoop : Loop :=
  ⟨blockRound, fun h => Round.lt (h ▸ round_blockRound _)⟩

theorem run_blockLoop (text : String) :
    blockLoop.run "" text = .ok (String.ofList (stripBlocks text.toList)) := by
  rw [Loop.run_eq round_blockRound, String.empty_append]

/-! ### Line comments -/

/-- One round of the removal of line comments. -/
def lineRound (rest : String) : Except BadSlice (Option (String × String)) :=
  match find? "//" rest with
  | none => .ok none
  | some start => do
    let before ← sliceTo rest start
    let comment ← sliceFrom rest start
    match find? "\n" comment with
    | some len => return some (before, ← sliceFrom rest (start + len))
    | none => return some (before, "")

theorem stripLinesFrom_code_append (h : Clear slashes r t) :
    stripLinesFrom .code (t ++ r) = t ++ stripLinesFrom .code r := by
  induction t with
  | nil => rfl
  | cons x t ih =>
    obtain ⟨hx, ht⟩ := h
    rw [List.cons_append, stripLinesFrom_code_cons hx, ih ht, List.cons_append]

theorem lineRound_of_last_line (hrest : rest.toList = p ++ (slashes ++ t))
    (hopen : find? "//" rest = some (size p))
    (hend : find? "\n" (String.ofList (slashes ++ t)) = none) :
    lineRound rest = .ok (some (String.ofList p, "")) := by
  simp only [lineRound, hopen, sliceTo_eq hrest, sliceFrom_eq hrest, ok_bind, hend]
  rfl

theorem lineRound_of_newline (hrest : rest.toList = p ++ (slashes ++ c ++ '\n' :: r))
    (hopen : find? "//" rest = some (size p))
    (hend : find? "\n" (String.ofList (slashes ++ c ++ '\n' :: r)) = some (size (slashes ++ c))) :
    lineRound rest = .ok (some (String.ofList p, String.ofList ('\n' :: r))) := by
  have hleft := sliceFrom_eq (hrest.trans (List.append_assoc _ _ _).symm)
  rw [size_append] at hleft
  simp only [lineRound, hopen, sliceTo_eq hrest, sliceFrom_eq hrest, ok_bind, hend, hleft]
  rfl

theorem round_lineRound (rest : String) : Round stripLines rest (lineRound rest) := by
  cases hopen : find? "//" rest with
  | none =>
    rw [lineRound, hopen]
    exact .last (stripLines_eq_self (find?_eq_none rfl rfl hopen))
  | some start =>
    obtain ⟨p, t, hrest, rfl, hp⟩ := find?_eq_some (m := slashes) rfl rfl (by decide) hopen
    rw [List.append_assoc] at hrest
    have hstrip : stripLines rest.toList = p ++ stripLinesFrom .comment t := by
      rw [hrest, stripLines, stripLinesFrom_code_append (clear_of_forall hp)]
      rfl
    cases hend : find? "\n" (String.ofList (slashes ++ t)) with
    | none =>
      have hno := find?_char_eq_none (c := '\n') rfl String.toList_ofList hend
      rw [List.mem_append, not_or] at hno
      rw [lineRound_of_last_line hrest hopen hend]
      refine .next ?_ ?_
      · rw [utf8ByteSize_eq_size rest, hrest, size_append]
        exact Nat.add_pos_right _ (size_pos (List.cons_ne_nil _ _))
      · rw [hstrip, stripLinesFrom_comment_of_no_newline hno.2, String.toList_ofList]
        rfl
    | some len =>
      obtain ⟨d, r, hd, rfl, hno⟩ := find?_char_eq_some (c := '\n') rfl String.toList_ofList hend
      -- the newline stands behind both slashes
      obtain ⟨c, rfl, rfl⟩ : ∃ c, d = slashes ++ c ∧ t = c ++ '\n' :: r := by
        rcases d with - | ⟨x, - | ⟨y, c⟩⟩
        · cases hd
        · cases hd
        · obtain ⟨rfl, htail⟩ := List.cons.inj hd
          obtain ⟨rfl, ht⟩ := List.cons.inj htail
          exact ⟨c, rfl, ht⟩
      rw [List.mem_append, not_or] at hno
      rw [← List.append_assoc slashes] at hrest hend
      rw [lineRound_of_newline hrest hopen hend]
      refine .next ?_ ?_
      · rw [utf8ByteSize_eq_size rest, hrest, size_append, size_append, size_append,
          utf8ByteSize_ofList]
        show _ < size p + (2 + size c + _)
        omega
      · rw [hstrip, stripLinesFrom_append_newline, stripLinesFrom_comment_of_no_newline hno.2,
          String.toList_ofList, String.toList_ofList]
        rfl

/-- The removal of line comments. -/
def lineLoop : Loop :=
  ⟨lineRound, fun h => Round.lt (h ▸ round_lineRound _)⟩

theorem run_lineLoop (text : String) :
    lineLoop.run "" text = .ok (String.ofList (stripLines text.toList)) := by
  rw [Loop.run_eq round_lineRound, String.empty_append]

end ModuleHierarchy.Comment
