/-
ModuleHierarchy/Hierarchy/Basic.lean

The hierarchy: for each module the modules it places.

The empty hierarchy and the operations on it keep an order: the entries stand in strictly
increasing order of their names, and the children of an entry stand in the order in which they
were found, each once and never the module itself.  A child need not have an entry.

`children?` is the view of a hierarchy.  `define` and `addChild` change it for one name at
most, and `tryDefine` and `tryAddChild` also say whether they changed anything.
-/
import ModuleHierarchy.Names

namespace ModuleHierarchy

/-- A module and the modules it places. -/
structure Hierarchy.Entry where
  name : String
  children : List String
deriving DecidableEq, Repr

/-- For each module the modules it places. -/
structure Hierarchy where
  entries : List Hierarchy.Entry := []
deriving DecidableEq, Repr

namespace Hierarchy

instance : EmptyCollection Hierarchy := ⟨{}⟩

/-! ### Questions -/

/-- The names of the modules that have an entry. -/
def keys (h : Hierarchy) : List String :=
  h.entries.map Entry.name

/-- Whether a module has an entry. -/
def contains (h : Hierarchy) (name : String) : Bool :=
  h.entries.any (·.name == name)

/-- The children of a module, if it has an entry. -/
def children? (h : Hierarchy) (name : String) : Option (List String) :=
  (h.entries.find? (·.name == name)).map Entry.children

/-- The children of a module, none if it has no entry. -/
def childrenOf (h : Hierarchy) (name : String) : List String :=
  (h.children? name).getD []

/-- All names that occur, with or without an entry, in increasing order. -/
def nodes (h : Hierarchy) : List String :=
  Names.ofList (h.entries.flatMap fun e => e.name :: e.children)

/-- All pairs of a module and a child of it, in the order of the entries. -/
def edges (h : Hierarchy) : List (String × String) :=
  h.entries.flatMap fun e => e.children.map fun c => (e.name, c)

/-- The number of entries. -/
def size (h : Hierarchy) : Nat :=
  h.entries.length

/-- Whether there is no entry. -/
def isEmpty (h : Hierarchy) : Bool :=
  h.entries.isEmpty

/-- The number of pairs of a module and a child of it. -/
def edgeCount (h : Hierarchy) : Nat :=
  (h.entries.flatMap fun e => e.children).length

/-! ### Changes -/

/-- Puts an entry at its place in an increasing list, instead of the one of that name if there
is one. -/
def putEntry (e : Entry) : List Entry → List Entry
  | [] => [e]
  | x :: xs =>
    if e.name < x.name then e :: x :: xs
    else if e.name = x.name then e :: xs
    else x :: putEntry e xs

/-- Gives a module these children instead of those it has. -/
def setChildren (h : Hierarchy) (name : String) (children : List String) : Hierarchy :=
  ⟨putEntry ⟨name, children⟩ h.entries⟩

/-- Gives a module an entry without children, unless it has one.  Says whether it had none. -/
def tryDefine (h : Hierarchy) (name : String) : Bool × Hierarchy :=
  if h.contains name then (false, h) else (true, h.setChildren name [])

/-- Adds a child behind the other children of a module, which gets an entry if it has none.
Nothing happens if the module would be its own child or has that child already.  Says whether
the child was added. -/
def tryAddChild (h : Hierarchy) (parent child : String) : Bool × Hierarchy :=
  if parent = child ∨ child ∈ h.childrenOf parent then (false, h)
  else (true, h.setChildren parent (h.childrenOf parent ++ [child]))

/-- The hierarchy after `tryDefine`. -/
def define (h : Hierarchy) (name : String) : Hierarchy :=
  (h.tryDefine name).2

/-- The hierarchy after `tryAddChild`. -/
def addChild (h : Hierarchy) (parent child : String) : Hierarchy :=
  (h.tryAddChild parent child).2

/-- Gives every module of a list an entry. -/
def defineAll (h : Hierarchy) (names : List String) : Hierarchy :=
  names.foldl define h

/-- The hierarchy of a list of entries: each module is defined and gets its children in turn. -/
def ofEntries (entries : List Entry) : Hierarchy :=
  entries.foldl (fun h e => e.children.foldl (·.addChild e.name) (h.define e.name)) ∅

end Hierarchy

end ModuleHierarchy
