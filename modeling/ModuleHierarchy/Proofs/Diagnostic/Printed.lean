/-
ModuleHierarchy/Proofs/Diagnostic/Printed.lean

What stands on a terminal, by rules.  There is a rule for each severity, for each kind of segment
and for a diagnostic, and together they hold all that is printed.  So a warning with a location and
a note is printed as

    \x1b[33;1mwarning:\x1b[m\x1b[1m <message>\x1b[m
      --> <path>:<number of the line>
       |
       | <text of the line, with four blanks for each tab>
       = \x1b[1mnote:\x1b[m <message of the note>

with an empty line behind it.  The rules leave nothing open, since each of them settles its text.
What a session prints is the text that they give for its diagnostics one after the other, and they
give no other:

    Printed s.diagnostics text ↔ text = s.render                          (`Session.printed_iff`).
-/
import Mathlib.Data.List.Forall2
import ModuleHierarchy.Diagnostic

namespace ModuleHierarchy

variable {text mark : String}

/-! ### The rules -/

/-- The word that a diagnostic starts with, in its colour. -/
inductive Severity.PrintedAs : Severity → String → Prop
  | error : PrintedAs .error "\x1b[31;1merror"
  | warning : PrintedAs .warning "\x1b[33;1mwarning"
  | note : PrintedAs .note "\x1b[36;1mnote"

/-- What a segment is printed as. -/
inductive Segment.PrintedAs : Segment → String → Prop
  /-- A line that the source has is quoted. -/
  | quoted {place : Location} {line : String} (hline : place.text? = some line) :
      PrintedAs (.location place)
        (s!"  --> {place.source.path}:{place.line}\n" ++ ("   | \n   | " ++
          String.ofList ([' ', ' ', ' ', ' '].intercalate (line.toList.splitOn '\t')) ++ "\n"))
  | unquoted {place : Location} (hline : place.text? = none) :
      PrintedAs (.location place) s!"  --> {place.source.path}:{place.line}\n"
  | note (message : String) : PrintedAs (.note message) s!"   = \x1b[1mnote:\x1b[m {message}\n"

/-- What a diagnostic is printed as: the line of its message, its segments in order, and an empty
line. -/
inductive Diagnostic.PrintedAs : Diagnostic → String → Prop
  | mk {severity : Severity} {message mark : String} {segments : List Segment} {texts : List String}
      (hmark : severity.PrintedAs mark) (hsegments : List.Forall₂ Segment.PrintedAs segments texts) :
      PrintedAs ⟨severity, message, segments⟩
        (mark ++ s!":\x1b[m\x1b[1m {message}\x1b[m\n" ++ String.join texts ++ "\n")

/-- The text is what the diagnostics are printed as, one after the other. -/
def Printed (ds : List Diagnostic) (text : String) : Prop :=
  ∃ texts, List.Forall₂ Diagnostic.PrintedAs ds texts ∧ text = String.join texts

/-! ### Severities -/

theorem Severity.printedAs_iff {severity : Severity} :
    severity.PrintedAs mark ↔ mark = severity.colour ++ severity.name := by
  constructor
  · intro h
    cases h <;> decide
  · rintro rfl
    cases severity with
    | note => exact .note
    | warning => exact .warning
    | error => exact .error

/-! ### Segments -/

/-- To put a text in the place of a character is to join with it what stands between. -/
theorem Text.flatMap_ite_eq_intercalate (x : Char) (sep s : List Char) :
    (s.flatMap fun c => if c = x then sep else [c]) = sep.intercalate (s.splitOn x) := by
  induction s with
  | nil => rfl
  | cons c s ih =>
    obtain ⟨l, ls, hls⟩ := List.exists_cons_of_ne_nil (List.splitOn_ne_nil x s)
    rw [List.flatMap_cons, ih, List.splitOn_cons_eq_if_modifyHead, hls]
    by_cases hc : c = x
    · rw [if_pos hc, if_pos (beq_iff_eq.2 hc), List.intercalate_cons_cons, List.nil_append]
    · rw [if_neg hc, if_neg fun heq => hc (beq_iff_eq.1 heq), List.modifyHead_cons,
        List.intercalate_cons_cons_left, List.singleton_append]

theorem expandTabs_eq (line : String) : expandTabs line =
    String.ofList ([' ', ' ', ' ', ' '].intercalate (line.toList.splitOn '\t')) := by
  rw [expandTabs, Text.flatMap_ite_eq_intercalate]

/-- A location is printed with the names of its place, and with its line if there is one. -/
theorem Segment.render_location (place : Location) :
    (location place).render = s!"  --> {place.source.path}:{place.line}\n" ++
      match place.text? with
      | some line => "   | \n   | " ++ expandTabs line ++ "\n"
      | none => "" := by
  have hplace : s!"  --> {place}\n" = s!"  --> {place.source.path}:{place.line}\n" := by
    rw [show toString place = place.source.path ++ ":" ++ toString place.line from rfl]
    simp only [String.append_assoc, toString]
  rw [← hplace]
  rfl

theorem Segment.printedAs_iff (segment : Segment) (text : String) :
    segment.PrintedAs text ↔ text = segment.render := by
  cases segment with
  | location place =>
    rw [render_location]
    simp only [expandTabs_eq]
    constructor
    · intro h
      cases h with
      | quoted hline => rw [hline]
      | unquoted hline => rw [hline, String.append_empty]
    · rintro rfl
      cases hline : place.text? with
      | some line => exact .quoted hline
      | none =>
        rw [String.append_empty]
        exact .unquoted hline
  | note message =>
    constructor
    · rintro ⟨⟩
      rfl
    · rintro rfl
      exact .note message

/-! ### Diagnostics -/

/-- Where a rule settles its text, the texts of a list are settled. -/
theorem forall₂_iff_eq_map {α β : Type} {R : α → β → Prop} {f : α → β}
    (h : ∀ a b, R a b ↔ b = f a) {as : List α} {bs : List β} :
    List.Forall₂ R as bs ↔ bs = as.map f := by
  have hR : R = fun a b => f a = b := by
    funext a b
    exact propext ((h a b).trans eq_comm)
  rw [hR, ← List.forall₂_map_left_iff, List.forall₂_eq_eq_eq, eq_comm]

theorem Diagnostic.render_append_newline (d : Diagnostic) :
    d.render ++ "\n" = d.severity.colour ++ d.severity.name ++ s!":\x1b[m\x1b[1m {d.message}\x1b[m\n" ++
      String.join (d.segments.map Segment.render) ++ "\n" := by
  show s!"{d.severity.colour}{d.severity.name}:\x1b[m\x1b[1m {d.message}\x1b[m\n" ++ _ ++ _ = _
  simp only [String.append_assoc, toString]

theorem Diagnostic.printedAs_iff (d : Diagnostic) (text : String) :
    d.PrintedAs text ↔ text = d.render ++ "\n" := by
  rw [render_append_newline]
  constructor
  · rintro ⟨hmark, hsegments⟩
    obtain rfl := Severity.printedAs_iff.1 hmark
    obtain rfl := (forall₂_iff_eq_map Segment.printedAs_iff).1 hsegments
    rfl
  · rintro rfl
    exact .mk (Severity.printedAs_iff.2 rfl) ((forall₂_iff_eq_map Segment.printedAs_iff).2 rfl)

/-- **What a session prints.**  The rules give one text for the diagnostics of a session, in their
order, which is the one that the session prints. -/
theorem Session.printed_iff {s : Session} : Printed s.diagnostics text ↔ text = s.render := by
  simp only [Printed, forall₂_iff_eq_map Diagnostic.printedAs_iff, exists_eq_left]
  exact Iff.rfl

example :
    (Session.mk [⟨.warning, "odd", [.location ⟨⟨"a.sv", "module a;\n\tb u ();"⟩, 2⟩, .note "look"]⟩,
      ⟨.error, "bad", []⟩]).render =
    "\x1b[33;1mwarning:\x1b[m\x1b[1m odd\x1b[m\n  --> a.sv:2\n   | \n   |     b u ();\n" ++
      "   = \x1b[1mnote:\x1b[m look\n\n\x1b[31;1merror:\x1b[m\x1b[1m bad\x1b[m\n\n" := by
  decide +kernel

end ModuleHierarchy
