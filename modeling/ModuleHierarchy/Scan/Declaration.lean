/-
ModuleHierarchy/Scan/Declaration.lean

What a scan of the tokens may find odd, and the first pass over the tokens: which modules are
defined.

A warning keeps the tokens it is about, and the source is asked for only when it becomes a
diagnostic.

The token behind every `module` is a declared name, whatever its kind.  The name itself is
passed over, so in `module module a` the declared name is `module`; the body of a module is
not, so a `module` in an unexpected place declares a name too.
-/
import ModuleHierarchy.Diagnostic
import ModuleHierarchy.Hierarchy.Basic
import ModuleHierarchy.Token.Basic

namespace ModuleHierarchy

/-! ### Warnings -/

/-- An oddity in the structure of the modules. -/
inductive Warning where
  /-- The name was declared before. -/
  | redefined (name : Token)
  /-- The module `inner` starts while `outer` is still open. -/
  | unclosed (outer inner : Token)
deriving DecidableEq, Repr

namespace Warning

/-- The name token of the module that the warning is about. -/
def subject : Warning → Token
  | redefined name => name
  | unclosed _ inner => inner

/-- The message of a warning. -/
def message : Warning → String
  | redefined name => s!"module `{name.text}` is defined more than once"
  | unclosed outer inner =>
    s!"module `{inner.text}` starts before module `{outer.text}` is closed"

/-- The notes of a warning. -/
def notes : Warning → List String
  | redefined _ => ["all definitions are merged into one node of the hierarchy"]
  | unclosed outer inner =>
    [s!"`{outer.text}` (line {outer.line}) is missing its `endmodule`",
      s!"instantiations from here on are attributed to `{inner.text}`"]

/-- The diagnostic of a warning: it points at the line of its subject in the source and adds
its notes. -/
def diagnostic (source : Source) (w : Warning) : Diagnostic :=
  ⟨.warning, w.message, .location ⟨source, w.subject.line⟩ :: w.notes.map .note⟩

end Warning

/-! ### The first pass -/

namespace Scan

/-- The declared names, in order. -/
def declarations : List Token → List Token
  | t :: name :: ts =>
    if t.spells Token.moduleWord then name :: declarations ts else declarations (name :: ts)
  | _ => []

/-- The tokens whose text was met before, in `seen` or earlier in the list. -/
def repeated (seen : List String) : List Token → List Token
  | [] => []
  | t :: ts => if t.text ∈ seen then t :: repeated seen ts else repeated (t.text :: seen) ts

/-- The set of defined modules. -/
def definitions (ts : List Token) : List String :=
  Names.ofList ((declarations ts).map Token.text)

/-- A warning for each declared name that was declared before. -/
def redefinitions (ts : List Token) : List Warning :=
  (repeated [] (declarations ts)).map .redefined

/-- The hierarchy in which every declared module has an entry. -/
def defineDeclared (ts : List Token) (h : Hierarchy) : Hierarchy :=
  h.defineAll ((declarations ts).map Token.text)

/-- What the first pass writes to the log. -/
def definitionsLog (defs : List String) : Log :=
  [⟨.debug, s!"defined modules: {Names.inspect defs}"⟩]

end Scan

end ModuleHierarchy
