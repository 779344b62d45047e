/-
ModuleHierarchy/Files/Tree.lean

Why a file could not be read or written, and a file tree in memory, with the answers that reading
and writing a path gives.  It lets the tool run without touching a disk.

A path is a list of names between slashes and is walked one name at a time, from the top if it
begins with a slash and from the working directory if not.  Each step needs a directory to
start from, and the first step that cannot be made decides the error: so a path through a file
fails because the file is no directory, even if the path ends in a name that does not exist.
-/

namespace ModuleHierarchy

/-! ### Errors -/

/-- The cause of a failed access to a file. -/
inductive FileError where
  | notFound
  /-- Something that is no directory stands where the path goes on. -/
  | notADirectory
  | isADirectory
  /-- The path, or a name in it, is longer than the file system allows. -/
  | nameTooLong
  /-- The path contains a zero character. -/
  | zeroInPath
  /-- The file does not hold valid UTF-8. -/
  | invalidText
  /-- Any other cause, in the words and by the number of the system. -/
  | system (words : String) (number : Nat)
deriving DecidableEq, Repr

/-- The text of an error. -/
def FileError.message : FileError → String
  | .notFound => "No such file or directory (os error 2)"
  | .notADirectory => "Not a directory (os error 20)"
  | .isADirectory => "Is a directory (os error 21)"
  | .nameTooLong => "File name too long (os error 36)"
  | .zeroInPath => "file name contained an unexpected NUL byte"
  | .invalidText => "stream did not contain valid UTF-8"
  | .system words number => s!"{words} (os error {number})"

instance : ToString FileError := ⟨FileError.message⟩

/-! ### The tree -/

/-- Contents are compared by this instance, whatever others are in reach. -/
local instance (priority := 2000) FileTree.decidableEqContent : DecidableEq ByteArray :=
  ByteArray.instDecidableEq

/-- What a name stands for. -/
inductive FileTree.Node where
  | directory
  | file (content : ByteArray)
deriving DecidableEq

/-- A place in the tree: the names on the way from the top. -/
abbrev FileTree.Place := List String

/-- A file tree.  The empty place is the top directory, which is always there. -/
structure FileTree where
  nodes : List (FileTree.Place × FileTree.Node) := []
  /-- The directory where paths start that do not begin with a slash. -/
  working : FileTree.Place := []

namespace FileTree

/-! ### Places -/

/-- What stands at a place. -/
def node? (t : FileTree) (place : Place) : Option Node :=
  if place = [] then some .directory else t.nodes.lookup place

/-- Whether a place holds a directory. -/
def isDirectory (t : FileTree) (place : Place) : Bool :=
  t.node? place = some .directory

/-- Puts a node at a place, instead of what stands there. -/
def put (t : FileTree) (place : Place) (node : Node) : FileTree :=
  { t with nodes := (place, node) :: t.nodes.filter (·.1 ≠ place) }

/-- Makes the directory at a place, unless something stands there. -/
def makeDirectory (t : FileTree) (place : Place) : FileTree :=
  if (t.node? place).isSome then t else t.put place .directory

/-! ### Paths -/

/-- The greatest length of a name, in bytes. -/
def maxNameLength : Nat := 255

/-- The greatest length of a path, in bytes. -/
def maxPathLength : Nat := 4095

/-- The names of a path, between its slashes. -/
def names (path : String) : List String :=
  ((path.toList.splitOn '/').filter (· ≠ [])).map String.ofList

/-- The place where a path starts. -/
def start (t : FileTree) (path : String) : Place :=
  if path.toList.head? = some '/' then [] else t.working

/-- The place that a name leads to from a directory.  The way up ends at the top. -/
def target (place : Place) (name : String) : Place :=
  if name = "." then place
  else if name = ".." then place.dropLast
  else place ++ [name]

/-- Whether a path ends in a slash and so can only mean a directory. -/
def wantsDirectory (path : String) : Bool :=
  path.toList.getLast? = some '/'

/-- What is wrong with a path, whatever the tree holds. -/
def pathError? (path : String) : Option FileError :=
  if '\x00' ∈ path.toList then some .zeroInPath
  else if path.isEmpty then some .notFound
  else if maxPathLength < path.utf8ByteSize then some .nameTooLong
  else none

/-- The place that a name leads to, where something need not stand. -/
def follow (t : FileTree) (place : Place) (name : String) : Except FileError Place :=
  if !t.isDirectory place then .error .notADirectory
  else if maxNameLength < name.utf8ByteSize then .error .nameTooLong
  else .ok (target place name)

/-- The place that a name leads to, where something stands. -/
def step (t : FileTree) (place : Place) (name : String) : Except FileError Place := do
  let next ← t.follow place name
  if (t.node? next).isSome then return next else throw .notFound

/-! ### Setting up a tree -/

/-- Walks along names, and makes a directory wherever nothing stands: the tree after the walk,
and the place where it ends. -/
def makeDirectories (t : FileTree) (place : Place) (names : List String) : FileTree × Place :=
  names.foldl (fun (t, place) name => (t.makeDirectory (target place name), target place name))
    (t, place)

/-- Makes a directory at a path, with the directories on the way to it. -/
def addDirectory (t : FileTree) (path : String) : FileTree :=
  (t.makeDirectories (t.start path) (names path)).1

/-- Makes a file at a path, with the directories on the way to it. -/
def addFile (t : FileTree) (path : String) (content : ByteArray) : FileTree :=
  let (t, parent) := t.makeDirectories (t.start path) (names path).dropLast
  match (names path).getLast? with
  | some name => t.put (target parent name) (.file content)
  | none => t

/-- A tree that holds nothing but its working directory, two levels below the top.  The
directories on the way have empty names, so that no path leads down to them. -/
def blank : FileTree :=
  (makeDirectories { working := ["", ""] } [] ["", ""]).1

example : (blank.addDirectory "a/../b").nodes.map (·.1.drop 2) = [["b"], ["a"], [], []] := by
  decide +kernel

/-! ### Reading and writing -/

/-- The text of the file at a path. -/
def read (t : FileTree) (path : String) : Except FileError String := do
  if let some e := pathError? path then throw e
  let place ← (names path).foldlM t.step (t.start path)
  match t.node? place with
  | some (.file content) =>
    if wantsDirectory path then throw .notADirectory
    match String.fromUTF8? content with
    | some text => return text
    | none => throw .invalidText
  | _ => throw .isADirectory

/-- The tree with a text in the file at a path, which is made if it is not there. -/
def write (t : FileTree) (path text : String) : Except FileError FileTree := do
  if let some e := pathError? path then throw e
  let parent ← (names path).dropLast.foldlM t.step (t.start path)
  match (names path).getLast? with
  | none => throw .isADirectory
  | some name =>
    let place ← t.follow parent name
    if wantsDirectory path || t.isDirectory place then throw .isADirectory
    return t.put place (.file text.toUTF8)

/-- The files under the working directory that are not the same in an earlier tree, with the
paths that lead to them from there. -/
def changes (before after : FileTree) : List (String × ByteArray) :=
  after.nodes.filterMap fun (place, node) =>
    match node with
    | .file content =>
      if after.working.isPrefixOf place ∧ before.node? place ≠ some node then
        some ("/".intercalate (place.drop after.working.length), content)
      else none
    | .directory => none

end FileTree

end ModuleHierarchy
