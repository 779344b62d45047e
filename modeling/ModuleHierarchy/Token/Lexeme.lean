/-
ModuleHierarchy/Token/Lexeme.lean

The spelling of the next token of a text.  There is one function per kind of token, each of
which answers with the spelling that the text starts with, or with nothing.  `next?` asks
them in a fixed order (reserved word, `#(`, identifier, number, symbol) and takes the first
answer, even if a later kind would have taken more characters.
-/
import ModuleHierarchy.Token.Basic

namespace ModuleHierarchy

/-- A spelling with the kind of token it stands for. -/
structure Lexeme where
  kind : Token.Kind
  spelling : List Char
deriving DecidableEq, Repr

namespace Lexeme

open Text

/-! ### Reserved words -/

/-- The reserved words, in the order they are tried. -/
def keywords : List (List Char) :=
  ["module", "endmodule", "input", "output", "logic", "assign", "always_ff", "always_comb",
    "if", "else", "case", "endcase", "for", "int", "posedge", "or", "default", "begin", "end",
    "generate", "genvar"].map String.toList

/-- The first word of the table that the text starts with and that ends where no word
character follows.  `prev` is the character before the text, which must not be a word
character either. -/
def tableWord? (table : List (List Char)) (prev : Option Char) (s : List Char) :
    Option (List Char) :=
  if prev.any isWordChar then none
  else table.find? fun word => word.isPrefixOf s && !(s.drop word.length).head?.any isWordChar

/-- A reserved word between word boundaries. -/
def keyword? (prev : Option Char) (s : List Char) : Option (List Char) :=
  tableWord? keywords prev s

/-! ### Parameter overrides and identifiers -/

/-- The opening of a list of parameter overrides. -/
def paramOpen? : List Char → Option (List Char)
  | '#' :: '(' :: _ => some ['#', '(']
  | _ => none

/-- The characters an identifier starts with. -/
def isNameStart (c : Char) : Bool :=
  c.isAlpha || c == '_'

/-- The characters an identifier goes on with. -/
def isNameChar (c : Char) : Bool :=
  c.isAlphanum || c == '_' || c == '$'

/-- The longest identifier the text starts with. -/
def ident? : List Char → Option (List Char)
  | c :: s => if isNameStart c then some (c :: s.takeWhile isNameChar) else none
  | [] => none

/-! ### Numbers -/

/-- The letters that name the base of a sized literal. -/
def isBaseLetter (c : Char) : Bool :=
  c ∈ ['b', 'd', 'h', 'B', 'D', 'H']

/-- The characters of the value of a sized literal. -/
def isValueChar (c : Char) : Bool :=
  c.isDigit || ('a' ≤ c && c ≤ 'f') || ('A' ≤ c && c ≤ 'F') || c == '_'

/-- A base letter and the value behind it, if there is one. -/
def baseAndValue? : List Char → Option (List Char)
  | c :: s =>
    if isBaseLetter c && s.head?.any isValueChar then some (c :: s.takeWhile isValueChar)
    else none
  | [] => none

/-- What makes a sized literal of a size: an apostrophe, which may be missing, a base letter
and a value. -/
def sizedTail? : List Char → Option (List Char)
  | '\x27' :: s => (baseAndValue? s).map ('\x27' :: ·)
  | s => baseAndValue? s

/-- A run of decimal digits, and the rest of a sized literal if the text goes on with one. -/
def number? (s : List Char) : Option (List Char) :=
  match s.takeWhile isDecimalDigit with
  | [] => none
  | digits => some (digits ++ (sizedTail? (s.dropWhile isDecimalDigit)).getD [])

/-! ### Symbols -/

/-- The symbols that consist of one character. -/
def punctuation : List Char :=
  "\x7b\x7d()[].,;:=*/+-".toList

/-- The operators that are tried after `punctuation`.  Of two operators one of which begins
with the other the longer is tried first; `==` is never reached, since `=` is a symbol of its
own. -/
def operators : List (List Char) :=
  ["<=", "==", "!=", "<", ">", "&&", "||", "~&", "~|"].map String.toList

/-- An apostrophe with the word character behind it, or a backtick with the word behind it. -/
def marked? : List Char → Option (List Char)
  | '\x27' :: c :: _ => if isWordChar c then some ['\x27', c] else none
  | '\x60' :: s => if s.head?.any isWordChar then some ('\x60' :: s.takeWhile isWordChar) else none
  | _ => none

/-- A punctuation mark, an operator, or a marked word. -/
def symbol? (s : List Char) : Option (List Char) :=
  match s with
  | c :: _ =>
    if c ∈ punctuation then some [c]
    else (operators.find? (·.isPrefixOf s)).or (marked? s)
  | [] => none

/-! ### All kinds -/

/-- The lexeme the text starts with, if any.  `prev` is the character before the text. -/
def next? (prev : Option Char) (s : List Char) : Option Lexeme :=
  ((keyword? prev s).map (⟨.keyword, ·⟩)).or <|
  ((paramOpen? s).map (⟨.paramOpen, ·⟩)).or <|
  ((ident? s).map (⟨.ident, ·⟩)).or <|
  ((number? s).map (⟨.number, ·⟩)).or <|
  (symbol? s).map (⟨.symbol, ·⟩)

end Lexeme

end ModuleHierarchy
