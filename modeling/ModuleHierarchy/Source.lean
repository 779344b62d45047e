/-
ModuleHierarchy/Source.lean

Source texts and places in them.  A source is the text of a file with the path it was read
from.  Its lines are what stands between newlines, counted from 1, so a text that ends in a
newline has an empty last line, and no text has no lines.
-/
import ModuleHierarchy.Text.Class

namespace ModuleHierarchy

/-- The text of a file and the path it was read from. -/
structure Source where
  path : String
  content : String
deriving DecidableEq, Repr

namespace Source

/-- What stands between the newlines of the source. -/
def lines (s : Source) : List (List Char) :=
  s.content.toList.splitOn '\n'

/-- The text of a line, without the carriage returns at its end. -/
def line? (s : Source) : Nat → Option String
  | 0 => none
  | n + 1 => s.lines[n]?.map fun l => String.ofList (Text.dropTrailing (· == '\r') l)

instance : ToString Source where
  toString s := s.path

/-- How log messages show a source: the path alone, as it is. -/
def inspect (s : Source) : String :=
  s!"Source(\"{s.path}\")"

end Source

/-- A line of a source. -/
structure Location where
  source : Source
  line : Nat
deriving DecidableEq, Repr

namespace Location

/-- The text of the line, if the source has it. -/
def text? (l : Location) : Option String :=
  l.source.line? l.line

instance : ToString Location where
  toString l := s!"{l.source}:{l.line}"

/-- How log messages show a location. -/
def inspect (l : Location) : String :=
  s!"{l.source.inspect}:{l.line}"

end Location

end ModuleHierarchy
