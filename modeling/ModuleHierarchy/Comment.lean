/-
ModuleHierarchy/Comment.lean

Removal of comments.  Block comments go first, then line comments, so that `//*` opens a block
comment, and removing a block comment may bring two slashes together.

* A block comment reaches from `/*` to the first `*/` behind it and leaves its newlines, so
  every line keeps its number.  One that is never closed is left as it is.
* A line comment reaches from `//` to the end of its line and leaves the newline.

String literals are not recognised: a marker inside one opens a comment like anywhere else.
-/

namespace ModuleHierarchy.Comment

/-- Where a scan stands. -/
inductive Region where
  | code
  | comment
deriving DecidableEq, Repr

/-- Whether a block comment that is open at the start of the text is closed in it. -/
def closes : List Char → Bool
  | '*' :: '/' :: _ => true
  | _ :: s => closes s
  | [] => false

/-- The text without its block comments, from a position in the given region on. -/
def stripBlocksFrom : Region → List Char → List Char
  | .code, '/' :: '*' :: s => if closes s then stripBlocksFrom .comment s else '/' :: '*' :: s
  | .code, c :: s => c :: stripBlocksFrom .code s
  | .comment, '*' :: '/' :: s => stripBlocksFrom .code s
  | .comment, '\n' :: s => '\n' :: stripBlocksFrom .comment s
  | .comment, _ :: s => stripBlocksFrom .comment s
  | _, [] => []

/-- The text without its block comments. -/
def stripBlocks (s : List Char) : List Char :=
  stripBlocksFrom .code s

/-- The text without its line comments, from a position in the given region on. -/
def stripLinesFrom : Region → List Char → List Char
  | .code, '/' :: '/' :: s => stripLinesFrom .comment s
  | .code, c :: s => c :: stripLinesFrom .code s
  | .comment, '\n' :: s => '\n' :: stripLinesFrom .code s
  | .comment, _ :: s => stripLinesFrom .comment s
  | _, [] => []

/-- The text without its line comments. -/
def stripLines (s : List Char) : List Char :=
  stripLinesFrom .code s

/-- The text without comments. -/
def strip (s : List Char) : List Char :=
  stripLines (stripBlocks s)

example : strip "a /* b\n*/ c // d\ne".toList = "a \n c \ne".toList := by decide

end ModuleHierarchy.Comment
