import DeclGraph.Distinct
import DeclGraph.Graph.Basic

/-!
# Reading a graph

Reads by number, key, name and neighbourhood. Everything is listed in the order
of creation.
-/

namespace DeclGraph.Graph

/-- All nodes. -/
def nodes (graph : Graph) : List Node := graph.nodeTable.values

/-- All edges. -/
def edges (graph : Graph) : List Edge := graph.edgeTable.values

/-- The number of nodes, the global namespace included. -/
def nodeCount (graph : Graph) : Nat := graph.nodeTable.size

/-- The number of edges. -/
def edgeCount (graph : Graph) : Nat := graph.edgeTable.size

/-- The node under a key. -/
def nodeByKey? (graph : Graph) (key : EntityKey) : Option Nat := graph.keyIndex[key]?

/-- The nodes of a name, whatever their kinds. -/
def nodesNamed (graph : Graph) (name : ScopedName) : List Nat :=
  listAt graph.nameIndex name

/-- The edge of a relation between two nodes. -/
def edgeBetween? (graph : Graph) (source target : Nat) (relation : Relation) : Option Edge :=
  graph.edgeIndex[(⟨source, target, relation⟩ : EdgeKey)]?.bind fun id => graph.edgeTable[id]?

/-- The nodes of a kind. -/
def nodesOfKind (graph : Graph) (kind : EntityKind) : List Node :=
  graph.nodes.filter (·.kind = kind)

/-- The edges of a relation. -/
def edgesOf (graph : Graph) (relation : Relation) : List Edge :=
  graph.edges.filter (·.relation = relation)

/-- The edges behind a list of numbers, of one relation or of any. -/
def edgesAmong (graph : Graph) (ids : List Nat) (relation : Option Relation) : List Edge :=
  (ids.filterMap (graph.edgeTable[·]?)).filter fun edge => relation.all (edge.relation = ·)

/-- The edges that leave a node. -/
def outgoing (graph : Graph) (node : Nat) (relation : Option Relation) : List Edge :=
  graph.edgesAmong (listAt graph.leaving node) relation

/-- The edges that enter a node. -/
def incoming (graph : Graph) (node : Nat) (relation : Option Relation) : List Edge :=
  graph.edgesAmong (listAt graph.entering node) relation

/-- The edges of a relation at a node in a direction, each with the node at its
other end. -/
def steps (graph : Graph) (node : Nat) (relation : Relation) (direction : Direction) :
    List (Nat × Nat) :=
  let forward := (graph.outgoing node (some relation)).map fun edge => (edge.id, edge.target)
  let backward := (graph.incoming node (some relation)).map fun edge => (edge.id, edge.source)
  match direction with
  | .outgoing => forward
  | .incoming => backward
  | .both => forward ++ backward

/-- The nodes one step away from a node, each once, in the order of the edges. -/
def neighbours (graph : Graph) (node : Nat) (relation : Relation) (direction : Direction) :
    Except GraphError (List Nat) := do
  let _ ← graph.node node
  let inOrder := (graph.steps node relation direction).mergeSort fun first second =>
    first.1 ≤ second.1
  return distinct (inOrder.map (·.2))

/-- The scope that holds a node. -/
def parent? (graph : Graph) (node : Nat) : Option Nat :=
  (graph.incoming node (some .contains)).head?.map (·.source)

/-- The members of a scope. -/
def children (graph : Graph) (scope : Nat) : List Nat :=
  (graph.outgoing scope (some .contains)).map (·.target)

end DeclGraph.Graph
