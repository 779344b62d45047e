/-
ModuleHierarchy/Graph/Dot.lean

The graph of a hierarchy and its DOT text.

The nodes are the names in increasing order, and the edges are the pairs of parent and child as
pairs of positions in that list.  Names without an entry are nodes like all others.

The text has five lines of title and style, a line per node with its position and its name as the
label, a line per edge with the positions of its ends, and a closing brace.  In a label the double
quote and the backslash stand behind a backslash and a newline is written `\l`, so that no name
breaks its line.
-/
import ModuleHierarchy.Hierarchy.Basic

namespace ModuleHierarchy

/-! ### The graph -/

/-- An edge between two nodes, which are given by their positions. -/
structure Graph.Edge where
  source : Nat
  target : Nat
deriving DecidableEq, Repr

/-- A directed graph with named nodes and edges without labels. -/
structure Graph where
  nodes : List String
  edges : List Graph.Edge
deriving DecidableEq, Repr

namespace Graph

/-- The edge between two names, if both are nodes. -/
def edge? (nodes : List String) (parent child : String) : Option Edge := do
  let source ← nodes.idxOf? parent
  let target ← nodes.idxOf? child
  return ⟨source, target⟩

/-- The graph of a hierarchy. -/
def ofHierarchy (h : Hierarchy) : Graph where
  nodes := h.nodes
  edges := h.edges.filterMap fun (parent, child) => edge? h.nodes parent child

/-! ### The text -/

/-- The lines above the nodes. -/
def header : List String :=
  ["// SystemVerilog Module Hierarchy",
    "digraph \x7b",
    "    node [fontname=Helvetica shape=box style=rounded]",
    "    edge [fontname=Helvetica]",
    "    rankdir=TB splines=ortho"]

/-- The characters that stand for `c` in a label. -/
def labelChar (c : Char) : List Char :=
  if c = '\n' then ['\\', 'l']
  else if c = '\x22' ∨ c = '\\' then ['\\', c]
  else [c]

/-- A name as it stands in a label. -/
def label (name : String) : String :=
  String.ofList (name.toList.flatMap labelChar)

/-- The line of the node at a position. -/
def nodeLine (position : Nat) (name : String) : String :=
  s!"    {position} [ label = \"{label name}\" ]"

/-- The line of an edge. -/
def edgeLine (e : Edge) : String :=
  s!"    {e.source} -> {e.target} [ ]"

/-- All lines of the text. -/
def dotLines (g : Graph) : List String :=
  header ++ g.nodes.zipIdx.map (fun (name, i) => nodeLine i name) ++ g.edges.map edgeLine ++
    ["\x7d"]

/-- The DOT text of a graph. -/
def dot (g : Graph) : String :=
  String.join (g.dotLines.map (· ++ "\n"))

end Graph

/-- The DOT text of a hierarchy. -/
def Hierarchy.dot (h : Hierarchy) : String :=
  (Graph.ofHierarchy h).dot

end ModuleHierarchy
