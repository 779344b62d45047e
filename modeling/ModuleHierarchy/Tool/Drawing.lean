/-
ModuleHierarchy/Tool/Drawing.lean

The tool: it reads a file, extracts the hierarchy, and writes its graph to a second file.

A run is a value: it says what it wants read or written next and how it goes on with each outcome,
until it ends with a report.  So what a tool does can be told without doing it, and the same run
can be carried out on a disk or on a file tree in memory.

Problems are reported as diagnostics only, so every run whose command line is understood ends
with exit code 0.  A file that cannot be read and a hierarchy without modules end the run
before anything is written.
-/
import ModuleHierarchy.Extraction
import ModuleHierarchy.Files.Tree
import ModuleHierarchy.Graph.Dot
import ModuleHierarchy.Tool.Request

namespace ModuleHierarchy

/-! ### Runs -/

/-- How a run ends: the exit code and what goes to the two streams. -/
structure Report where
  exitCode : Nat := 0
  stdout : String := ""
  stderr : String := ""
deriving DecidableEq, Repr

/-- A run of a tool. -/
inductive Run where
  | finished (report : Report)
  /-- Goes on with the text of the file at `path`. -/
  | read (path : String) (next : Except FileError String → Run)
  /-- Goes on when the text is in the file at `path`. -/
  | write (path text : String) (next : Except FileError Unit → Run)

/-- Carries out a run on a file tree: its report, and the tree it leaves. -/
def Run.onTree : Run → FileTree → Report × FileTree
  | finished report, t => (report, t)
  | read path next, t => (next (t.read path)).onTree t
  | write path text next, t =>
    match t.write path text with
    | .ok after => (next (.ok ())).onTree after
    | .error e => (next (.error e)).onTree t

/-! ### Reading the input -/

/-- What came of reading a file and extracting its hierarchy. -/
structure FileScan where
  hierarchy : Hierarchy
  diagnostics : List Diagnostic
  log : Log
deriving Repr

/-- The diagnostic for a file that cannot be read. -/
def FileError.readDiagnostic (path : String) : FileError → Diagnostic
  | .notFound => ⟨.error, s!"input file `{path}` not found", []⟩
  | e => ⟨.error, s!"unable to read `{path}`: {e}", []⟩

/-- What the log says about a file that was read. -/
def Source.loadLog (s : Source) : Log :=
  [⟨.debug, s!"loaded `{s.path}` ({s.content.utf8ByteSize} bytes)"⟩]

/-- The hierarchy of the file at a path, given what reading it came to.  A file that cannot be
read has an empty hierarchy and an error. -/
def scanFile (path : String) : Except FileError String → FileScan
  | .ok content =>
    let source : Source := ⟨path, content⟩
    let x := source.extract
    ⟨x.hierarchy, x.diagnostics source, source.loadLog ++ source.extractLog⟩
  | .error e => ⟨∅, [e.readDiagnostic path], []⟩

/-! ### Writing the output -/

/-- The path of the output of a given name. -/
def dotPath (output : String) : String :=
  output ++ ".dot"

/-- The diagnostic for a file that cannot be written. -/
def FileError.writeDiagnostic (path : String) (e : FileError) : Diagnostic :=
  ⟨.error, s!"unable to write `{path}`: {e}",
    [.note "make sure the output directory exists and is writable",
      .note "use `--output` to choose a different location"]⟩

/-- What the log says about a hierarchy that was written. -/
def Hierarchy.writeLog (h : Hierarchy) (path : String) : Log :=
  [⟨.debug, s!"wrote {h.nodes.length} nodes and {h.edgeCount} edges to `{path}`"⟩]

/-- Writes the DOT text of a hierarchy to the output of a given name. -/
def FileTree.writeDot (t : FileTree) (output : String) (h : Hierarchy) :
    Except Diagnostic FileTree :=
  (t.write (dotPath output) h.dot).mapError (·.writeDiagnostic (dotPath output))

/-! ### Drawing -/

/-- The diagnostic for an input without a module. -/
def emptyDiagnostic (input : String) : Diagnostic :=
  ⟨.warning, s!"no module hierarchy found in `{input}`", [.note "nothing to render"]⟩

/-- The end of a run whose output was written, or could not be. -/
def finishDrawing (session : Session) (path : String) : Except FileError Unit → Report
  | .ok () => { stdout := s!"Successfully generated DOT graph: {path}\n", stderr := session.render }
  | .error e => { stderr := (session.emit (e.writeDiagnostic path)).render }

/-- Goes on with what reading the input came to. -/
def drawContent (input output : String) (content : Except FileError String) : Run :=
  let scan := scanFile input content
  let session : Session := ⟨scan.diagnostics⟩
  if session.failed then .finished { stderr := session.render }
  else if scan.hierarchy.isEmpty then
    .finished { stderr := (session.emit (emptyDiagnostic input)).render }
  else
    .write (dotPath output) scan.hierarchy.dot fun outcome =>
      .finished (finishDrawing session (dotPath output) outcome)

/-- Draws the hierarchy of the file `input`. -/
def draw (input output : String) : Run :=
  .read input (drawContent input output)

/-- The name of the tool and its version. -/
def versionLine : String := "svgraph 0.3.0\n"

/-- How the tool is used. -/
def usage : String :=
  "Draws the module hierarchy of a SystemVerilog file as a Graphviz graph.\n\n" ++
  "USAGE:\n    svgraph [OPTIONS] <INPUT>\n\n" ++
  "FLAGS:\n    -h, --help       Prints help information\n" ++
  "    -V, --version    Prints version information\n\n" ++
  "OPTIONS:\n    -o, --output <NAME>    Name of the output .dot file (without extension) " ++
  "[default: sv_graph]\n\n" ++
  "ARGS:\n    <INPUT>    The SystemVerilog source file to scan\n"

/-- The run that a command line asks for. -/
def Run.ofArguments (args : List String) : Run :=
  match Request.ofArguments args with
  | .ok (.draw input output) => draw input output
  | .ok .version => .finished { stdout := versionLine }
  | .ok .help => .finished { stdout := usage }
  | .error e => .finished { exitCode := 1, stderr := s!"error: {e.message}\n\n{usage}" }

end ModuleHierarchy
