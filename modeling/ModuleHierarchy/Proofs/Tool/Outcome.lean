/-
ModuleHierarchy/Proofs/Tool/Outcome.lean

How a drawing ends.  A run is carried out here on a `Disk`, which may answer a read and a write in
any way.  What the run does next depends on two questions only: whether the input could be read, and
whether some `module` in it has a token behind it.  One equation for each case says how
`drawContent` goes on (`drawContent_error`, `drawContent_of_not_declares`,
`drawContent_of_declares`).

From these follows what a run reports (`Outcome.Reports`), which is said in full: the messages and
the notes of what the tool itself reports, the warnings of the extraction by position, and the text
that all of them are printed as.  There is one lemma for each of the four ends of a run, and
`outcome_draw` puts them together.

Only a failed access makes an error.  Whatever the extraction reports is a warning
(`severity_of_mem_diagnostics`), so a session has failed after the input was read if and only if it
could not be read (`failed_scanFile_iff`).

On a file tree the same run leaves the DOT text at the output path and all else as it was
(`onTree_draw`).
-/
import ModuleHierarchy.Proofs.Diagnostic.Printed
import ModuleHierarchy.Proofs.Extraction.Empty
import ModuleHierarchy.Proofs.Extraction.Silence
import ModuleHierarchy.Proofs.Files.Tree
import ModuleHierarchy.Tool.Drawing

namespace ModuleHierarchy

variable {input output path : String} {s : Source} {args : List String}

/-! ### Severities -/

theorem FileError.severity_readDiagnostic (e : FileError) (path : String) :
    (e.readDiagnostic path).severity = .error := by
  cases e <;> rfl

theorem Extraction.severity_of_mem_diagnostics {x : Extraction} {d : Diagnostic}
    (h : d ∈ x.diagnostics s) : d.severity = .warning := by
  obtain ⟨w, -, rfl⟩ := List.mem_map.1 h
  rfl

theorem Session.failed_iff {session : Session} :
    session.failed = true ↔ ∃ d ∈ session.diagnostics, d.severity = .error := by
  rw [failed, List.any_eq_true]
  refine exists_congr fun d => and_congr_right fun _ => ?_
  cases d.severity <;> decide

theorem Session.failed_diagnostics (x : Extraction) (s : Source) :
    (Session.mk (x.diagnostics s)).failed = false := by
  refine Bool.eq_false_iff.2 fun hfailed => ?_
  obtain ⟨d, hd, herror⟩ := failed_iff.1 hfailed
  rw [Extraction.severity_of_mem_diagnostics hd] at herror
  cases herror

/-- An input makes a session fail if and only if it cannot be read. -/
theorem failed_scanFile_iff (content : Except FileError String) :
    (Session.mk (scanFile input content).diagnostics).failed = true ↔ ∃ e, content = .error e := by
  cases content with
  | error e =>
    refine iff_of_true (Session.failed_iff.2 ?_) ⟨e, rfl⟩
    exact ⟨_, List.mem_singleton_self _, e.severity_readDiagnostic input⟩
  | ok text => simp [scanFile, Session.failed_diagnostics]

/-! ### How a drawing goes on -/

theorem drawContent_error (input output : String) (e : FileError) :
    drawContent input output (.error e) =
      .finished { stderr := (Session.mk [e.readDiagnostic input]).render } :=
  if_pos ((failed_scanFile_iff (.error e)).2 ⟨e, rfl⟩)

/-- A text that was read does not make the session fail, so only an empty hierarchy keeps it from
being drawn. -/
theorem drawContent_ok (s : Source) (output : String) :
    drawContent s.path output (.ok s.content) =
      if s.extract.hierarchy.isEmpty then
        .finished { stderr :=
          (Session.mk (s.extract.diagnostics s ++ [emptyDiagnostic s.path])).render }
      else
        .write (dotPath output) s.extract.hierarchy.dot fun result =>
          .finished (finishDrawing ⟨s.extract.diagnostics s⟩ (dotPath output) result) := by
  rw [drawContent, scanFile]
  simp only [Session.failed_diagnostics, Bool.false_eq_true, if_false, Session.emit]

theorem Source.isEmpty_extract_iff :
    s.extract.hierarchy.isEmpty = true ↔ ¬ Scan.Declares s.tokens := by
  rw [Scan.hierarchy_extract, Scan.isEmpty_scanned_iff]

theorem drawContent_of_not_declares (h : ¬ Scan.Declares s.tokens) (output : String) :
    drawContent s.path output (.ok s.content) =
      .finished { stderr := (Session.mk [emptyDiagnostic s.path]).render } := by
  have hnone : s.extract.diagnostics s = [] :=
    List.map_eq_nil_iff.2 (Extraction.warnings_eq_nil h ∅)
  rw [drawContent_ok, if_pos (Source.isEmpty_extract_iff.2 h), hnone, List.nil_append]

theorem drawContent_of_declares (h : Scan.Declares s.tokens) (output : String) :
    drawContent s.path output (.ok s.content) =
      .write (dotPath output) s.extract.hierarchy.dot fun result =>
        .finished (finishDrawing ⟨s.extract.diagnostics s⟩ (dotPath output) result) := by
  rw [drawContent_ok, if_neg fun hempty => Source.isEmpty_extract_iff.1 hempty h]

theorem finishDrawing_ok (session : Session) (path : String) :
    finishDrawing session path (.ok ()) =
      { stdout := s!"Successfully generated DOT graph: {path}\n", stderr := session.render } := rfl

theorem finishDrawing_error (ds : List Diagnostic) (path : String) (e : FileError) :
    finishDrawing ⟨ds⟩ path (.error e) =
      { stderr := (Session.mk (ds ++ [e.writeDiagnostic path])).render } := rfl

theorem Run.ofArguments_eq_draw (h : Request.ofArguments args = .ok (.draw input output)) :
    Run.ofArguments args = draw input output := by
  rw [Run.ofArguments, h]

/-! ### Runs on a disk -/

/-- What a disk answers: the text that a path is read to, and whether a text can be written to a
path. -/
structure Disk where
  reading : String → Except FileError String
  writing : String → String → Except FileError Unit

/-- How a run ends on a disk: its report, and the texts that it wrote with their paths. -/
structure Outcome where
  report : Report
  written : List (String × String) := []

/-- Carries out a run on a disk. -/
def Run.outcome (d : Disk) : Run → Outcome
  | finished report => { report }
  | read path next => (next (d.reading path)).outcome d
  | write path text next =>
    let rest := (next (d.writing path text)).outcome d
    match d.writing path text with
    | .ok () => { rest with written := (path, text) :: rest.written }
    | .error _ => rest

section Write

variable {d : Disk} {text : String} (report : Except FileError Unit → Report)

theorem Run.outcome_write_ok (h : d.writing path text = .ok ()) :
    (Run.write path text fun result => .finished (report result)).outcome d =
      ⟨report (.ok ()), [(path, text)]⟩ := by
  rw [outcome, h]
  rfl

theorem Run.outcome_write_error {e : FileError} (h : d.writing path text = .error e) :
    (Run.write path text fun result => .finished (report result)).outcome d =
      ⟨report (.error e), []⟩ := by
  rw [outcome, h]
  rfl

end Write

/-! ### What is reported -/

/-- A run ended with exit code 0.  It printed the text `stdout` on the one stream and the diagnostics
on the other, and it wrote the texts `written` and no others. -/
structure Outcome.Reports (o : Outcome) (stdout : String) (written : List (String × String))
    (ds : List Diagnostic) : Prop where
  exitCode : o.report.exitCode = 0
  stdout : o.report.stdout = stdout
  written : o.written = written
  stderr : Printed ds o.report.stderr

theorem Outcome.reports_render (stdout : String) (written : List (String × String))
    (ds : List Diagnostic) :
    Outcome.Reports ⟨{ stdout, stderr := (Session.mk ds).render }, written⟩ stdout written ds :=
  ⟨rfl, rfl, rfl, Session.printed_iff.2 rfl⟩

/-- What is reported of an input that cannot be read. -/
theorem FileError.readDiagnostic_eq (e : FileError) (path : String) :
    e.readDiagnostic path =
      ⟨.error, if e = .notFound then s!"input file `{path}` not found"
        else s!"unable to read `{path}`: {e.message}", []⟩ := by
  cases e <;> rfl

section Ends

variable (d : Disk)

theorem reports_drawContent_error (input output : String) (e : FileError) :
    ((drawContent input output (.error e)).outcome d).Reports "" [] [e.readDiagnostic input] := by
  rw [drawContent_error]
  exact Outcome.reports_render "" [] _

theorem reports_drawContent_of_not_declares (h : ¬ Scan.Declares s.tokens) (output : String) :
    ((drawContent s.path output (.ok s.content)).outcome d).Reports "" []
      [emptyDiagnostic s.path] := by
  rw [drawContent_of_not_declares h]
  exact Outcome.reports_render "" [] _

variable {d}

theorem reports_drawContent_of_write_ok (h : Scan.Declares s.tokens)
    (hok : d.writing (dotPath output) s.extract.hierarchy.dot = .ok ()) :
    ((drawContent s.path output (.ok s.content)).outcome d).Reports
      s!"Successfully generated DOT graph: {dotPath output}\n"
      [(dotPath output, s.extract.hierarchy.dot)] (s.extract.diagnostics s) := by
  rw [drawContent_of_declares h, Run.outcome_write_ok _ hok, finishDrawing_ok]
  exact Outcome.reports_render _ [_] _

theorem reports_drawContent_of_write_error (h : Scan.Declares s.tokens) {e : FileError}
    (he : d.writing (dotPath output) s.extract.hierarchy.dot = .error e) :
    ((drawContent s.path output (.ok s.content)).outcome d).Reports "" []
      (s.extract.diagnostics s ++ [e.writeDiagnostic (dotPath output)]) := by
  rw [drawContent_of_declares h, Run.outcome_write_error _ he, finishDrawing_error]
  exact Outcome.reports_render "" [] _

/-- The texts that were read and written do not change the exit code. -/
theorem exitCode_drawContent (content : Except FileError String) :
    ((drawContent input output content).outcome d).report.exitCode = 0 := by
  cases content with
  | error e => exact (reports_drawContent_error d input output e).exitCode
  | ok content =>
    obtain ⟨s, rfl, rfl⟩ : ∃ s : Source, s.path = input ∧ s.content = content :=
      ⟨⟨input, content⟩, rfl, rfl⟩
    by_cases h : Scan.Declares s.tokens
    · cases hwrite : d.writing (dotPath output) s.extract.hierarchy.dot with
      | ok _ => exact (reports_drawContent_of_write_ok h hwrite).exitCode
      | error e => exact (reports_drawContent_of_write_error h hwrite).exitCode
    · exact (reports_drawContent_of_not_declares d h output).exitCode

end Ends

/-- **The four ends of a drawing.**  Once the arguments are understood, a run ends with exit code 0
on every disk.
* An input that cannot be read is reported as the only diagnostic, an error.
* An input in which no `module` has a token behind it is reported as the only diagnostic, a warning.
* Else the output is written, and what is printed are the warnings of the extraction and, on the
  other stream, the path;
* or it cannot be written, and an error is printed behind the warnings.
Nothing is written in the first two cases, and only the DOT text in the third.  The extraction
reports the warnings of both passes and nothing else, so that reading the input makes a session fail
if and only if the input cannot be read. -/
theorem outcome_draw (h : Request.ofArguments args = .ok (.draw input output)) (d : Disk) :
    let o := (Run.ofArguments args).outcome d
    let path := output ++ ".dot"
    o.report.exitCode = 0 ∧
      (∀ e, d.reading input = .error e →
        o.Reports "" [] [⟨.error, if e = .notFound then s!"input file `{input}` not found"
          else s!"unable to read `{input}`: {e.message}", []⟩]) ∧
      (∀ content, d.reading input = .ok content →
        let s : Source := ⟨input, content⟩
        let dot := s.extract.hierarchy.dot
        let warnings := s.extract.diagnostics s
        (¬ Scan.Declares s.tokens →
          o.Reports "" [] [⟨.warning, s!"no module hierarchy found in `{input}`",
            [.note "nothing to render"]⟩]) ∧
        (Scan.Declares s.tokens → d.writing path dot = .ok () →
          o.Reports s!"Successfully generated DOT graph: {path}\n" [(path, dot)] warnings) ∧
        (Scan.Declares s.tokens → ∀ e, d.writing path dot = .error e →
          o.Reports "" [] (warnings ++ [⟨.error, s!"unable to write `{path}`: {e.message}",
            [.note "make sure the output directory exists and is writable",
              .note "use `--output` to choose a different location"]⟩]))) ∧
      (∀ s : Source, s.extract.diagnostics s = s.warningsByPosition ∧
        ∀ w ∈ s.extract.diagnostics s, w.severity = .warning) ∧
      ∀ content, (Session.mk (scanFile input content).diagnostics).failed = true ↔
        ∃ e, content = .error e := by
  intro o path
  have ho : o = (drawContent input output (d.reading input)).outcome d := by
    rw [show o = (Run.ofArguments args).outcome d from rfl, Run.ofArguments_eq_draw h]
    rfl
  refine ⟨?_, ?_, ?_, fun s => ⟨s.diagnostics_extract, fun w =>
    Extraction.severity_of_mem_diagnostics⟩, failed_scanFile_iff⟩
  · rw [ho]
    exact exitCode_drawContent _
  · intro e he
    rw [ho, he, ← e.readDiagnostic_eq]
    exact reports_drawContent_error d input output e
  · intro content hcontent s dot warnings
    rw [ho, hcontent]
    refine ⟨fun hs => ?_, fun hs hok => ?_, fun hs e he => ?_⟩
    · exact reports_drawContent_of_not_declares (s := s) d hs output
    · exact reports_drawContent_of_write_ok (s := s) hs hok
    · exact reports_drawContent_of_write_error (s := s) hs he

/-- A warning and an error, on a disk that nothing can be written to. -/
theorem outcome_draw_read_only :
    let s : Source := ⟨"top.sv", "module a;\nmodule b;"⟩
    let e : FileError := .system "Read-only file system" 30
    let d : Disk := ⟨fun _ => .ok s.content, fun _ _ => .error e⟩
    Request.ofArguments ["top.sv", "-o", "g"] = .ok (.draw "top.sv" "g") ∧
      Scan.Declares s.tokens ∧
      ((Run.ofArguments ["top.sv", "-o", "g"]).outcome d).Reports "" []
        [⟨.warning, "module `b` starts before module `a` is closed", [.location ⟨s, 2⟩,
            .note "`a` (line 1) is missing its `endmodule`",
            .note "instantiations from here on are attributed to `b`"]⟩,
          ⟨.error, "unable to write `g.dot`: Read-only file system (os error 30)",
            [.note "make sure the output directory exists and is writable",
              .note "use `--output` to choose a different location"]⟩] := by
  intro s e d
  have hrequest : Request.ofArguments ["top.sv", "-o", "g"] = .ok (.draw "top.sv" "g") := rfl
  have hdeclares : Scan.Declares s.tokens := by decide +kernel
  have hwarnings : s.extract.diagnostics s =
      [(Warning.unclosed ⟨.ident, "a", 1⟩ ⟨.ident, "b", 2⟩).diagnostic s] := by decide +kernel
  obtain ⟨-, -, hread, -⟩ := outcome_draw hrequest d
  obtain ⟨-, -, hrefused⟩ := hread s.content rfl
  have hend := hrefused hdeclares e rfl
  rw [hwarnings] at hend
  exact ⟨hrequest, hdeclares, hend⟩

/-! ### Runs on a file tree -/

/-- What a file tree answers to a run that reads before it writes. -/
def FileTree.disk (t : FileTree) : Disk :=
  ⟨t.read, fun path text => (t.write path text).map fun _ => ()⟩

theorem FileTree.writing_disk (t : FileTree) (path text : String) :
    t.disk.writing path text = (t.write path text).map fun _ => () := rfl

/-- What a run that comes to the outcome `o` leaves of the tree `t`: the tree as it was, or the text
that was written at `path` and one changed place. -/
def FileTree.Leaves (t after : FileTree) (path : String) (o : Outcome) : Prop :=
  o.written = [] ∧ after = t ∨
    ∃ text place, o.written = [(path, text)] ∧ after.read path = .ok text ∧
      ∀ other, other ≠ place → after.node? other = t.node? other

theorem onTree_drawContent (input output : String) (content : Except FileError String)
    (t : FileTree) :
    let r := drawContent input output content
    (r.onTree t).1 = (r.outcome t.disk).report ∧
      t.Leaves (r.onTree t).2 (dotPath output) (r.outcome t.disk) := by
  intro r
  cases content with
  | error e =>
    rw [show r = _ from drawContent_error input output e]
    exact ⟨rfl, .inl ⟨rfl, rfl⟩⟩
  | ok content =>
    let s : Source := ⟨input, content⟩
    by_cases h : Scan.Declares s.tokens
    · rw [show r = _ from drawContent_of_declares h output, Run.onTree]
      cases hwrite : t.write (dotPath output) s.extract.hierarchy.dot with
      | error e =>
        have hdisk : t.disk.writing (dotPath output) s.extract.hierarchy.dot = .error e := by
          rw [FileTree.writing_disk, hwrite]
          rfl
        rw [Run.outcome_write_error _ hdisk]
        exact ⟨rfl, .inl ⟨rfl, rfl⟩⟩
      | ok after =>
        have hdisk : t.disk.writing (dotPath output) s.extract.hierarchy.dot = .ok () := by
          rw [FileTree.writing_disk, hwrite]
          rfl
        rw [Run.outcome_write_ok _ hdisk]
        obtain ⟨place, -, hrest⟩ := FileTree.node?_of_write hwrite
        exact ⟨rfl, .inr ⟨_, place, rfl, FileTree.read_of_write hwrite, hrest⟩⟩
    · rw [show r = _ from drawContent_of_not_declares h output]
      exact ⟨rfl, .inl ⟨rfl, rfl⟩⟩

/-- **What a drawing leaves on a file tree.**  Its report is the one it gives on a disk with the
same answers.  It leaves the tree as it was if it writes nothing; else the output path leads to the
text that was written, and one place at most has changed. -/
theorem onTree_draw (input output : String) (t : FileTree) :
    let o := (draw input output).outcome t.disk
    let (report, after) := (draw input output).onTree t
    report = o.report ∧ t.Leaves after (dotPath output) o :=
  onTree_drawContent input output (t.read input) t

end ModuleHierarchy
