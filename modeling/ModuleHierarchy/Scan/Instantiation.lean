/-
ModuleHierarchy/Scan/Instantiation.lean

The second pass over the tokens: which defined modules each module body places.

The pass keeps the name of the module it is in.  `endmodule` leaves it, and `module` in front
of an identifier enters that module, also when another one is still open, which is a finding.
Inside a module a defined name is an instantiation if a plain name and `(` follow, or `#(`.
Every token is looked at, also the ones behind an instantiation that were looked ahead at.

What is found does not depend on a hierarchy; `addLinks` puts it into one.
-/
import ModuleHierarchy.Diagnostic
import ModuleHierarchy.Hierarchy.Basic
import ModuleHierarchy.Scan.Declaration

namespace ModuleHierarchy.Scan

/-- An instantiation: the name of the module it stands in, and the name of the module it
places. -/
structure Link where
  parent : Token
  child : Token
deriving DecidableEq, Repr

/-- What the second pass comes across. -/
inductive Finding where
  | link (l : Link)
  /-- The module `inner` starts while `outer` is still open. -/
  | unclosed (outer inner : Token)
deriving DecidableEq, Repr

/-! ### The pass -/

/-- The name of the module that starts at `t`, if one does; `ts` are the tokens behind it. -/
def header? (t : Token) (ts : List Token) : Option Token :=
  if t.spells Token.moduleWord then ts.head?.filter (·.kind = .ident) else none

/-- Whether `ts` goes on like an instantiation behind the name of a module. -/
def continuesInstantiation : List Token → Bool
  | next :: ts =>
    (next.isPlainName && ts.head?.any (·.spells "(")) || next.spells Token.overrideMark
  | [] => false

/-- Whether `t` is the name of a module that is placed here; `ts` are the tokens behind it. -/
def places (defs : List String) (t : Token) (ts : List Token) : Bool :=
  t.text ∈ defs && continuesInstantiation ts

/-- What is found from a token on, when the module of the name `current` is open there. -/
def findingsFrom (defs : List String) : (current : Option Token) → List Token → List Finding
  | _, [] => []
  | current, t :: ts =>
    if t.spells Token.endmoduleWord then findingsFrom defs none ts
    else
      match header? t ts, current with
      | some inner, some outer => .unclosed outer inner :: findingsFrom defs (some inner) ts
      | some inner, none => findingsFrom defs (some inner) ts
      | none, some parent =>
        if places defs t ts then .link ⟨parent, t⟩ :: findingsFrom defs (some parent) ts
        else findingsFrom defs (some parent) ts
      | none, none => findingsFrom defs none ts

/-- What the second pass finds. -/
def findings (defs : List String) (ts : List Token) : List Finding :=
  findingsFrom defs none ts

/-! ### What becomes of the findings -/

/-- The instantiation of a finding. -/
def Finding.link? : Finding → Option Link
  | link l => some l
  | unclosed _ _ => none

/-- The warning of a finding. -/
def Finding.warning? : Finding → Option Warning
  | link _ => none
  | unclosed outer inner => some (.unclosed outer inner)

/-- The instantiations, in order. -/
def links (defs : List String) (ts : List Token) : List Link :=
  (findings defs ts).filterMap Finding.link?

/-- The warnings, in order. -/
def unclosedModules (defs : List String) (ts : List Token) : List Warning :=
  (findings defs ts).filterMap Finding.warning?

/-- Adds the child of every link to its parent. -/
def addLinks (h : Hierarchy) (ls : List Link) : Hierarchy :=
  ls.foldl (fun h l => h.addChild l.parent.text l.child.text) h

/-- The links that change the hierarchy when all are added in order. -/
def newLinks (h : Hierarchy) : List Link → List Link
  | [] => []
  | l :: ls =>
    match h.tryAddChild l.parent.text l.child.text with
    | (true, h) => l :: newLinks h ls
    | (false, h) => newLinks h ls

/-- The hierarchy with the instantiations that the second pass finds. -/
def addInstantiations (defs : List String) (ts : List Token) (h : Hierarchy) : Hierarchy :=
  addLinks h (links defs ts)

/-- What the log says about a new child. -/
def Link.log (l : Link) : Log.Entry :=
  ⟨.trace, s!"`{l.parent.text}` instantiates `{l.child.text}` (line {l.child.line})"⟩

/-- What the second pass writes to the log. -/
def instantiationsLog (defs : List String) (ts : List Token) (h : Hierarchy) : Log :=
  (newLinks h (links defs ts)).map Link.log

end ModuleHierarchy.Scan
