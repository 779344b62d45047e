/-
ModuleHierarchy/Token/Basic.lean

Tokens: a kind, a spelling and the number of the line they stand on.  Only the kinds that are
needed to spot module definitions and instantiations are told apart.
-/
import ModuleHierarchy.Text.Class

namespace ModuleHierarchy

/-- The kind of a token. -/
inductive Token.Kind where
  /-- A reserved word. -/
  | keyword
  /-- The `#(` that opens a list of parameter overrides. -/
  | paramOpen
  | ident
  /-- A plain or sized integer literal. -/
  | number
  /-- An operator, a punctuation mark, a directive. -/
  | symbol
deriving DecidableEq, Repr

/-- A token.  Lines are counted from 1. -/
structure Token where
  kind : Token.Kind
  text : String
  line : Nat
deriving DecidableEq, Repr

namespace Token

/-- The word that opens a module. -/
def moduleWord : String := "module"

/-- The word that closes a module. -/
def endmoduleWord : String := "endmodule"

/-- The opening of a list of parameter overrides. -/
def overrideMark : String := "#("

/-- Whether the token spells the given text. -/
def spells (t : Token) (text : String) : Bool :=
  t.text == text

/-- A plain name starts with an ASCII letter or an underscore and goes on with word characters.
Reserved words are plain names; names that contain a dollar sign are not. -/
def isPlainName (t : Token) : Bool :=
  match t.text.toList with
  | c :: s => (c.isAlpha || c == '_') && s.all Text.isWordChar
  | [] => false

end Token

end ModuleHierarchy
