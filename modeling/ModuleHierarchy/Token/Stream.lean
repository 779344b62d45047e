/-
ModuleHierarchy/Token/Stream.lean

The tokens of a text.  A walk over the characters asks at each position for the lexeme there,
passes its characters and goes on behind it; a character that starts no lexeme is dropped, so
every text has a list of tokens.

`ofChars` reads any text as one stretch.  `ofText` reads a text line by line: each line loses
its comments and the blanks at its ends first, and its tokens carry its number.
-/
import ModuleHierarchy.Comment
import ModuleHierarchy.Diagnostic
import ModuleHierarchy.Text.Class
import ModuleHierarchy.Token.Lexeme

namespace ModuleHierarchy.Token

/-- The token a lexeme stands for on the given line. -/
def ofLexeme (line : Nat) (l : Lexeme) : Token :=
  ⟨l.kind, String.ofList l.spelling, line⟩

@[simp] theorem toList_text_ofLexeme (line : Nat) (l : Lexeme) :
    (ofLexeme line l).text.toList = l.spelling :=
  String.toList_ofList

/-- The tokens from a position on.  `pending` counts the characters ahead that belong to a
token already found, and `prev` is the character before the position. -/
def walk (line : Nat) : (pending : Nat) → (prev : Option Char) → List Char → List Token
  | _, _, [] => []
  | pending + 1, _, c :: s => walk line pending (some c) s
  | 0, prev, c :: s =>
    match Lexeme.next? prev (c :: s) with
    | some l => ofLexeme line l :: walk line (l.spelling.length - 1) (some c) s
    | none => walk line 0 (some c) s

/-- The tokens of a text, all of which carry the given line number. -/
def ofChars (line : Nat) (s : List Char) : List Token :=
  walk line 0 none s

/-- The tokens of one line. -/
def ofLine (line : Nat) (s : List Char) : List Token :=
  ofChars line (Text.trim (Comment.strip s))

/-- The tokens of a text that is read line by line. -/
def ofText (s : List Char) : List Token :=
  ((s.splitOn '\n').zipIdx 1).flatMap fun (l, n) => ofLine n l

/-- What the log says about the tokens of a text. -/
def streamLog (ts : List Token) : Log :=
  [⟨.debug, s!"lexed {ts.length} tokens"⟩]

example : ofText "\n  fifo #(.D(8'h_f)) u;".toList =
    [⟨.ident, "fifo", 2⟩, ⟨.paramOpen, "#(", 2⟩, ⟨.symbol, ".", 2⟩, ⟨.ident, "D", 2⟩,
      ⟨.symbol, "(", 2⟩, ⟨.number, "8'h_f", 2⟩, ⟨.symbol, ")", 2⟩, ⟨.symbol, ")", 2⟩,
      ⟨.ident, "u", 2⟩, ⟨.symbol, ";", 2⟩] := by decide

end ModuleHierarchy.Token
