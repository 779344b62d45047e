/-
ModuleHierarchy/Diagnostic.lean

What the program has to say: diagnostics for the user, and log entries.

A diagnostic has a severity, a message, and a list of segments that point at lines of a source or
add a note.  `Session` collects what was reported and knows whether an error was among it.  On a
terminal the first line of a diagnostic holds the severity in its colour and the message in bold.
A location adds its place and, if the source has that line, the line itself between bars with each
tab as four blanks; a note adds one line.

The steps of the program are functions without effects, so what they have to say about their work
is a list of log entries beside their result.  `inspect` is the form in which a diagnostic goes to
the log.
-/
import ModuleHierarchy.Source
import ModuleHierarchy.Text.Printable

namespace ModuleHierarchy

/-! ### Diagnostics -/

/-- How grave a diagnostic is, from the least to the most. -/
inductive Severity where
  | note
  | warning
  | error
deriving DecidableEq, Repr, Ord

namespace Severity

instance : LE Severity := leOfOrd

/-- The word for a severity. -/
def name : Severity → String
  | .note => "note"
  | .warning => "warning"
  | .error => "error"

end Severity

/-- What a diagnostic adds to its message. -/
inductive Segment where
  | location (place : Location)
  | note (message : String)
deriving DecidableEq, Repr

/-- A report about the input or about the run. -/
structure Diagnostic where
  severity : Severity
  message : String
  segments : List Segment := []
deriving DecidableEq, Repr

/-- What was reported so far, in order. -/
structure Session where
  diagnostics : List Diagnostic := []
deriving DecidableEq, Repr

namespace Session

/-- The session after one more report. -/
def emit (s : Session) (d : Diagnostic) : Session :=
  ⟨s.diagnostics ++ [d]⟩

/-- Whether an error was reported. -/
def failed (s : Session) : Bool :=
  s.diagnostics.any fun d => .error ≤ d.severity

end Session

/-! ### On the terminal -/

/-- The escape sequence that starts the colour of a severity. -/
def Severity.colour : Severity → String
  | .error => "\x1b[31;1m"
  | .warning => "\x1b[33;1m"
  | .note => "\x1b[36;1m"

/-- The text with each tab as four blanks. -/
def expandTabs (text : String) : String :=
  String.ofList (text.toList.flatMap fun c => if c = '\t' then [' ', ' ', ' ', ' '] else [c])

/-- The lines of a segment. -/
def Segment.render : Segment → String
  | .location l =>
    s!"  --> {l}\n" ++
      match l.text? with
      | some text => s!"   | \n   | {expandTabs text}\n"
      | none => ""
  | .note message => s!"   = \x1b[1mnote:\x1b[m {message}\n"

/-- The lines of a diagnostic. -/
def Diagnostic.render (d : Diagnostic) : String :=
  s!"{d.severity.colour}{d.severity.name}:\x1b[m\x1b[1m {d.message}\x1b[m\n" ++
    String.join (d.segments.map Segment.render)

/-- What the session prints: each diagnostic with an empty line behind it. -/
def Session.render (s : Session) : String :=
  String.join (s.diagnostics.map fun d => d.render ++ "\n")

/-! ### In the log -/

/-- How important a log entry is. -/
inductive Log.Level where
  | error
  | warn
  | info
  | debug
  | trace
deriving DecidableEq, Repr

/-- The word for a level. -/
def Log.Level.name : Log.Level → String
  | .error => "error"
  | .warn => "warn"
  | .info => "info"
  | .debug => "debug"
  | .trace => "trace"

/-- A message of the given importance. -/
structure Log.Entry where
  level : Log.Level
  message : String
deriving DecidableEq, Repr

/-- Log entries in the order they were written. -/
abbrev Log := List Log.Entry

/-- How the log shows a severity. -/
def Severity.inspect : Severity → String
  | .note => "Note"
  | .warning => "Warning"
  | .error => "Error"

/-- How the log shows a segment. -/
def Segment.inspect : Segment → String
  | .location l => s!"Location({l.inspect})"
  | .note message => s!"Note({Text.quoted message})"

/-- How the log shows a diagnostic. -/
def Diagnostic.inspect (d : Diagnostic) : String :=
  "DiagBuilder \x7b severity: " ++ d.severity.inspect ++ ", message: " ++
    Text.quoted d.message ++ ", segments: [" ++
    ", ".intercalate (d.segments.map Segment.inspect) ++ "] \x7d"

/-- What a session writes to the log. -/
def Session.log (s : Session) : Log :=
  s.diagnostics.map fun d => ⟨.trace, s!"emitting {d.inspect}"⟩

end ModuleHierarchy
