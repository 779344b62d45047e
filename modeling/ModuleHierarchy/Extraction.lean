/-
ModuleHierarchy/Extraction.lean

From a source to the hierarchy of its modules.  No-break spaces become spaces and comments are
removed, the rest is cut into tokens, and the two passes over the tokens fill a hierarchy.
Every source has a hierarchy; what looks odd in it becomes a warning.
-/
import ModuleHierarchy.Scan.Declaration
import ModuleHierarchy.Scan.Instantiation
import ModuleHierarchy.Token.Stream

namespace ModuleHierarchy

/-! ### Both passes -/

/-- The result of both passes over a list of tokens. -/
structure Extraction where
  tokens : List Token
  definitions : List String
  warnings : List Warning
  /-- The instantiations that added a child. -/
  newLinks : List Scan.Link
  hierarchy : Hierarchy
deriving Repr

/-- Gives every defined module an entry. -/
def Hierarchy.assemble (defs : List String) (h : Hierarchy) : Hierarchy :=
  h.defineAll defs

namespace Extraction

/-- Both passes over a list of tokens, into a hierarchy that may hold entries already. -/
def ofTokens (ts : List Token) (h : Hierarchy) : Extraction :=
  let defs := Scan.definitions ts
  let declared := Scan.defineDeclared ts h
  { tokens := ts
    definitions := defs
    warnings := Scan.redefinitions ts ++ Scan.unclosedModules defs ts
    newLinks := Scan.newLinks declared (Scan.links defs ts)
    hierarchy := (Scan.addInstantiations defs ts declared).assemble defs }

/-- The diagnostics of the warnings, those of the first pass first. -/
def diagnostics (source : Source) (x : Extraction) : List Diagnostic :=
  x.warnings.map (·.diagnostic source)

end Extraction

/-! ### From a source -/

namespace Source

/-- The text that is cut into tokens: no comments, and spaces for no-break spaces. -/
def code (s : Source) : List Char :=
  Comment.strip (s.content.toList.map Text.plainSpace)

/-- The tokens of a source. -/
def tokens (s : Source) : List Token :=
  Token.ofText s.code

/-- The modules of a source. -/
def extract (s : Source) : Extraction :=
  Extraction.ofTokens s.tokens ∅

/-- What the extraction writes to the log. -/
def extractLog (s : Source) : Log :=
  let x := s.extract
  Token.streamLog x.tokens ++ Scan.definitionsLog x.definitions ++
    x.newLinks.map Scan.Link.log ++
    [⟨.info, s!"found {x.hierarchy.size} modules and {x.hierarchy.edgeCount} instantiations" ++
      s!" in `{s.path}`"⟩]

end Source

end ModuleHierarchy
