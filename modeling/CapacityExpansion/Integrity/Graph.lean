import CapacityExpansion.Data.OrderedSet
import CapacityExpansion.Integrity.CrossReference

/-!
# The dependency graph

The cross-references form a graph, with an edge from what refers to what is
referred to. Checks run along it from the bottom: a category is checked after
everything it depends on. This order is the finishing order of a depth-first
search, which looks at the nodes in the order the references first mention them
and at the dependencies of a node in the order of the references.

A graph with a cycle has no such order; then the finishing order has an edge
whose dependency does not come first, which is how a cycle is noticed.

* `Graph.finish`: the finishing order;
* `Graph.checkOrder?`: the finishing order of a graph without a cycle.
-/

namespace CapacityExpansion.Integrity

/-- The dependency graph. -/
structure Graph where
  /-- The nodes, in order of first mention. -/
  nodes : OrderedSet Node
  /-- The edges, one for each reference. -/
  edges : List CrossReference

/-- The node at which a reference starts. -/
def CrossReference.source (x : CrossReference) : Node := .scenario x.dependent

/-- The node at which a reference ends. -/
def CrossReference.target (x : CrossReference) : Node := x.dependency.node

namespace Graph

/-- The graph of some cross-references. -/
def ofReferences (references : List CrossReference) : Graph where
  nodes := .ofList (references.flatMap fun x => [x.source, x.target])
  edges := references

variable (g : Graph)

/-- The nodes a node depends on, in the order of the references. -/
def dependencies (node : Node) : List Node :=
  (g.edges.filter (·.source == node)).map CrossReference.target

/-- The finished nodes once a node and everything it depends on are finished too, except for the
    nodes on the way to it. The depth bounds the length of that way. -/
def visit : (depth : Nat) → (way : List Node) → (finished : List Node) → Node → List Node
  | 0, _, finished, _ => finished
  | depth + 1, way, finished, node =>
    if node ∈ finished ∨ node ∈ way then finished
    else
      (g.dependencies node).foldl (fun done next => visit depth (node :: way) done next) finished
        ++ [node]

/-- The nodes in the order in which a depth-first search finishes them. -/
def finish : List Node :=
  g.nodes.elements.foldl (g.visit (g.nodes.elements.length + 1) []) []

/-- Whether the target of a reference comes before its source. -/
def inOrder (order : List Node) (x : CrossReference) : Bool :=
  decide (order.idxOf x.target < order.idxOf x.source)

/-- The nodes, each after everything it depends on; nothing if there is a cycle. -/
def checkOrder? : Option (List Node) :=
  if g.edges.all (inOrder g.finish) then some g.finish else none

/-- In a check order every dependency comes before what depends on it. -/
theorem idxOf_lt_of_checkOrder? {g : Graph} {order : List Node} (h : g.checkOrder? = some order)
    {x : CrossReference} (hx : x ∈ g.edges) : order.idxOf x.target < order.idxOf x.source := by
  unfold checkOrder? at h
  split at h
  · next hall =>
    cases h
    simpa [inOrder] using List.all_eq_true.1 hall x hx
  · cases h

/-! ## Drawing -/

/-- The position of a node among the nodes. -/
def indexOf (node : Node) : Nat := g.nodes.elements.idxOf node

/-- The line of a node in a drawing. -/
def nodeLine (node : Node) (index : Nat) : String :=
  s!"    {index} [ label = \"" ++ node.name ++ "\" ]\n"

/-- The line of an edge in a drawing; references to project fragments are dashed. -/
def edgeLine (x : CrossReference) : String :=
  let style := match x.dependency with
    | .subFragment _ => "style=dashed"
    | _ => ""
  s!"    {g.indexOf x.source} -> {g.indexOf x.target} [ label = \"" ++ x.dependency.rule ++ "\" " ++
    style ++ "]\n"

/-- The drawing of the graph in the DOT language. -/
def dot : String :=
  "digraph \x7b\n" ++ String.join (g.nodes.elements.zipIdx.map fun (node, i) => nodeLine node i) ++
    String.join (g.edges.map g.edgeLine) ++ "\x7d\n"

end Graph

end CapacityExpansion.Integrity
