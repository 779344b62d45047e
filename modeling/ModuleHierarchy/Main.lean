/-
ModuleHierarchy/Main.lean

The command line: carries out the run that the arguments ask for on the disk.
-/
import ModuleHierarchy.Tool.Drawing

namespace ModuleHierarchy

/-- The cause that stands behind an error number of the system.  Some calls give the number,
others its negative. -/
def FileError.ofNumber (number : UInt32) (words : String) : FileError :=
  match min number (0 - number) with
  | 2 => .notFound
  | 20 => .notADirectory
  | 21 => .isADirectory
  | 36 => .nameTooLong
  | n => .system words.capitalize n.toNat

/-- The cause of an error that the system reports. -/
def FileError.ofSystem (e : IO.Error) : FileError :=
  match e with
  | .noFileOrDirectory _ number words => ofNumber number words
  | .inappropriateType _ number words => ofNumber number words
  | .invalidArgument _ number words => ofNumber number words
  | .permissionDenied _ number words => ofNumber number words
  | .resourceExhausted _ number words => ofNumber number words
  | .noSuchThing _ number words => ofNumber number words
  | .otherError number words => ofNumber number words
  | e => .system (toString e) 0

/-- Reads the text of a file. -/
def readText (path : String) : IO (Except FileError String) := do
  if let some e := FileTree.pathError? path then return .error e
  try
    match String.fromUTF8? (← IO.FS.readBinFile path) with
    | some text => return .ok text
    | none => return .error .invalidText
  catch e => return .error (.ofSystem e)

/-- Writes a text to a file. -/
def writeText (path text : String) : IO (Except FileError Unit) := do
  if let some e := FileTree.pathError? path then return .error e
  try
    IO.FS.writeFile path text
    return .ok ()
  catch e => return .error (.ofSystem e)

/-- Carries out a run on the disk. -/
def Run.onDisk : Run → IO Report
  | finished report => return report
  | read path next => do (next (← readText path)).onDisk
  | write path text next => do (next (← writeText path text)).onDisk

end ModuleHierarchy

/-- Carries out the run that the arguments ask for and prints its report. -/
def main (args : List String) : IO UInt32 := do
  let report ← (ModuleHierarchy.Run.ofArguments args).onDisk
  IO.print report.stdout
  IO.eprint report.stderr
  return report.exitCode.toUInt32
