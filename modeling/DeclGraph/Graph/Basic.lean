import DeclGraph.Attributes.Basic
import DeclGraph.EntityKey
import DeclGraph.Relation

/-!
# Declaration graphs

A declaration graph holds entities as nodes and relations between them as
edges. Nodes and edges get numbers in the order of their creation, and no
number is given twice. Beside the nodes and edges themselves the graph keeps
four indexes, so that it can be read by key, by name, by the ends of an edge
and by neighbourhood; the operations of this module are the only writers, and
each of them keeps the indexes in step.
-/

namespace DeclGraph

/-- A declared entity. -/
structure Node where
  id : Nat
  key : EntityKey
  kind : EntityKind
  attributes : Attributes
deriving DecidableEq

namespace Node

/-- The written form: kind, name and signature. -/
def display (node : Node) : String :=
  node.kind.display ++ " " ++ node.key.name.display ++ node.key.signature.getD ""

end Node

/-- A relation between two entities. -/
structure Edge where
  id : Nat
  source : Nat
  target : Nat
  relation : Relation
  attributes : Attributes
deriving DecidableEq

/-- What an edge is recognised by: its ends and its relation. -/
structure EdgeKey where
  source : Nat
  target : Nat
  relation : Relation
deriving DecidableEq, Repr

namespace EdgeKey

instance : Ord EdgeKey where
  compare := compareLex (compareOn EdgeKey.source)
    (compareLex (compareOn EdgeKey.target) (compareOn EdgeKey.relation))

instance : Std.TransOrd EdgeKey :=
  inferInstanceAs (Std.TransCmp (compareLex (compareOn EdgeKey.source)
    (compareLex (compareOn EdgeKey.target) (compareOn EdgeKey.relation))))

instance : Std.LawfulEqOrd EdgeKey where
  compare_self := by intro key; exact Std.ReflCmp.compare_self
  eq_of_compare := by
    intro first second same
    obtain ⟨source, rest⟩ := compareLex_eq_eq.mp same
    obtain ⟨target, relation⟩ := compareLex_eq_eq.mp rest
    have sameSource : first.source = second.source := Std.LawfulEqOrd.eq_of_compare source
    have sameTarget : first.target = second.target := Std.LawfulEqOrd.eq_of_compare target
    have sameRelation : first.relation = second.relation :=
      Std.LawfulEqOrd.eq_of_compare relation
    cases first
    cases second
    simp_all

end EdgeKey

/-- What the edge is recognised by. -/
def Edge.key (edge : Edge) : EdgeKey := ⟨edge.source, edge.target, edge.relation⟩

/-- Why an operation on a graph fails. -/
inductive GraphError where
  | nodeMissing (id : Nat)
  | edgeMissing (id : Nat)
  | keyTaken (key : EntityKey)
  | kindOutsideFamily (kind : EntityKind) (key : EntityKey)
  | kindChange (key : EntityKey) (kind : EntityKind)
  | rootRemoval
  | manyParents (node : Node) (count : Nat)
  | containmentCycle (node : Node)
  | oneWayOverload (source target : Nat)
deriving DecidableEq

namespace GraphError

/-- The text reported for an error. -/
def message : GraphError → String
  | .nodeMissing id => s!"Node not found: {id}"
  | .edgeMissing id => s!"Edge not found: {id}"
  | .keyTaken key => s!"Duplicate node key: {key.display}"
  | .kindOutsideFamily kind key =>
    s!"Invalid operation: {kind.display} cannot be stored under key {key.display}"
  | .kindChange key kind =>
    s!"Invalid operation: cannot change {key.display} into {kind.display}"
  | .rootRemoval => "Invalid operation: Cannot remove the global namespace"
  | .manyParents node count =>
    s!"Invariant violation: {node.display} has {count} Contains parents"
  | .containmentCycle node =>
    s!"Invariant violation: Contains cycle through {node.display}"
  | .oneWayOverload source target =>
    s!"Invariant violation: Overloads edge {source} -> {target} has no reverse"

end GraphError

/-- The entities of a code base and the relations between them. -/
structure Graph where
  /-- The number of the next node. -/
  nextNode : Nat
  /-- The number of the next edge. -/
  nextEdge : Nat
  nodeTable : Std.ExtTreeMap Nat Node
  edgeTable : Std.ExtTreeMap Nat Edge
  /-- The node under each key. -/
  keyIndex : Std.ExtTreeMap EntityKey Nat
  /-- The nodes of each name, in the order of creation. -/
  nameIndex : Std.ExtTreeMap ScopedName (List Nat)
  /-- The edge with given ends and relation. -/
  edgeIndex : Std.ExtTreeMap EdgeKey Nat
  /-- The edges that leave a node, in the order of creation. -/
  leaving : Std.ExtTreeMap Nat (List Nat)
  /-- The edges that enter a node, in the order of creation. -/
  entering : Std.ExtTreeMap Nat (List Nat)
deriving DecidableEq

namespace Graph

/-- The number of the global namespace. -/
def root : Nat := 0

/-- The list under a key of an index, empty where there is none. -/
def listAt {α : Type} [Ord α] [Std.TransOrd α] (index : Std.ExtTreeMap α (List Nat))
    (key : α) : List Nat :=
  index[key]?.getD []

/-- Appends a number to the list under a key. -/
def appendAt {α : Type} [Ord α] [Std.TransOrd α] (index : Std.ExtTreeMap α (List Nat))
    (key : α) (id : Nat) : Std.ExtTreeMap α (List Nat) :=
  index.insert key (listAt index key ++ [id])

/-- Removes a number from the list under a key, and the key with its last
number. -/
def removeAt {α : Type} [Ord α] [Std.TransOrd α] (index : Std.ExtTreeMap α (List Nat))
    (key : α) (id : Nat) : Std.ExtTreeMap α (List Nat) :=
  let rest := (listAt index key).filter (· ≠ id)
  if rest.isEmpty then index.erase key else index.insert key rest

/-- Adds a node without looking at what is there. -/
def addNode (graph : Graph) (key : EntityKey) (kind : EntityKind)
    (attributes : Attributes) : Graph :=
  let id := graph.nextNode
  { graph with
    nextNode := id + 1
    nodeTable := graph.nodeTable.insert id ⟨id, key, kind, attributes⟩
    keyIndex := graph.keyIndex.insert key id
    nameIndex := appendAt graph.nameIndex key.name id }

/-- The graph that holds the global namespace alone. -/
def empty : Graph :=
  addNode ⟨0, 0, ∅, ∅, ∅, ∅, ∅, ∅, ∅⟩ .global .namespaceScope ∅

/-- Adds a node under a new key and gives its number. A key can be used once,
and the kind has to be of the family of the key. -/
def insert (graph : Graph) (key : EntityKey) (kind : EntityKind) (attributes : Attributes) :
    Except GraphError (Graph × Nat) :=
  if graph.keyIndex.contains key then .error (.keyTaken key)
  else if kind.family ≠ key.family then .error (.kindOutsideFamily kind key)
  else .ok (graph.addNode key kind attributes, graph.nextNode)

/-- The node of a number. -/
def node (graph : Graph) (id : Nat) : Except GraphError Node :=
  match graph.nodeTable[id]? with
  | some node => .ok node
  | none => .error (.nodeMissing id)

/-- The edge of a number. -/
def edge (graph : Graph) (id : Nat) : Except GraphError Edge :=
  match graph.edgeTable[id]? with
  | some edge => .ok edge
  | none => .error (.edgeMissing id)

/-- Replaces the attributes of a node. -/
def setAttributes (graph : Graph) (id : Nat) (attributes : Attributes) :
    Except GraphError Graph := do
  let node ← graph.node id
  return { graph with nodeTable := graph.nodeTable.insert id { node with attributes } }

/-- Changes the kind of a node within its family. -/
def setKind (graph : Graph) (id : Nat) (kind : EntityKind) : Except GraphError Graph := do
  let node ← graph.node id
  if node.key.family ≠ kind.family then
    .error (.kindChange node.key kind)
  else
    return { graph with nodeTable := graph.nodeTable.insert id { node with kind } }

/-- Adds an edge without looking at what is there. -/
def addEdge (graph : Graph) (key : EdgeKey) (attributes : Attributes) : Graph :=
  let id := graph.nextEdge
  { graph with
    nextEdge := id + 1
    edgeTable := graph.edgeTable.insert id ⟨id, key.source, key.target, key.relation, attributes⟩
    edgeIndex := graph.edgeIndex.insert key id
    leaving := appendAt graph.leaving key.source id
    entering := appendAt graph.entering key.target id }

/-- Relates two nodes and gives the number of the edge. Where they are related
in this way already, the edge there absorbs the attributes. -/
def connect (graph : Graph) (source target : Nat) (relation : Relation)
    (attributes : Attributes) : Except GraphError (Graph × Nat) := do
  let _ ← graph.node source
  let _ ← graph.node target
  let key : EdgeKey := ⟨source, target, relation⟩
  match graph.edgeIndex[key]? with
  | some id =>
    let edgeTable := graph.edgeTable.modify id fun edge =>
      { edge with attributes := edge.attributes.absorb attributes }
    return ({ graph with edgeTable }, id)
  | none => return (graph.addEdge key attributes, graph.nextEdge)

/-- Takes an edge out of the graph, if it is there. -/
def eraseEdge (graph : Graph) (id : Nat) : Graph :=
  match graph.edgeTable[id]? with
  | none => graph
  | some edge =>
    { graph with
      edgeTable := graph.edgeTable.erase id
      edgeIndex := graph.edgeIndex.erase edge.key
      leaving := removeAt graph.leaving edge.source id
      entering := removeAt graph.entering edge.target id }

/-- Removes an edge. -/
def removeEdge (graph : Graph) (id : Nat) : Except GraphError Graph := do
  let _ ← graph.edge id
  return graph.eraseEdge id

/-- The numbers of the edges at a node; a loop is listed twice. -/
def edgesAt (graph : Graph) (id : Nat) : List Nat :=
  listAt graph.leaving id ++ listAt graph.entering id

/-- Removes a node with every edge at it. The global namespace stays. -/
def removeNode (graph : Graph) (id : Nat) : Except GraphError Graph := do
  if id = root then
    .error .rootRemoval
  else
    let node ← graph.node id
    let bare := (graph.edgesAt id).foldl eraseEdge graph
    return { bare with
      nodeTable := bare.nodeTable.erase id
      keyIndex := bare.keyIndex.erase node.key
      nameIndex := removeAt bare.nameIndex node.key.name id }

end Graph

end DeclGraph
