import DeclGraph.Proofs.Table

/-!
# Sound graphs

A graph is sound when its indexes say exactly what its tables hold, every edge
joins two nodes, and every kind is of the family of its key. The graph of the
global namespace alone is sound. This module shows that changes of nodes keep a
graph sound; changes of edges follow in the next.
-/

namespace DeclGraph

namespace Graph

/-- The key of a node. -/
def key? (graph : Graph) (id : Nat) : Option EntityKey := graph.nodeTable[id]?.map (·.key)

/-- What an edge is recognised by. -/
def edgeKey? (graph : Graph) (id : Nat) : Option EdgeKey := graph.edgeTable[id]?.map (·.key)

/-- The tables and indexes of a graph agree. -/
structure Sound (graph : Graph) : Prop where
  node_id : ∀ {id : Nat} {node : Node}, graph.nodeTable[id]? = some node → node.id = id
  node_lt : ∀ {id : Nat} {node : Node}, graph.nodeTable[id]? = some node → id < graph.nextNode
  kind_family : ∀ {id : Nat} {node : Node}, graph.nodeTable[id]? = some node →
    node.kind.family = node.key.family
  keyIndex_iff : ∀ {key : EntityKey} {id : Nat},
    graph.keyIndex[key]? = some id ↔ graph.key? id = some key
  mem_named : ∀ {name : ScopedName} {id : Nat}, id ∈ listAt graph.nameIndex name ↔
    (graph.key? id).map (·.name) = some name
  named_increasing : ∀ name, (listAt graph.nameIndex name).Pairwise (· < ·)
  root_key : graph.key? root = some .global
  edge_id : ∀ {id : Nat} {edge : Edge}, graph.edgeTable[id]? = some edge → edge.id = id
  edge_lt : ∀ {id : Nat} {edge : Edge}, graph.edgeTable[id]? = some edge → id < graph.nextEdge
  edge_ends : ∀ {id : Nat} {key : EdgeKey}, graph.edgeKey? id = some key →
    (graph.key? key.source).isSome ∧ (graph.key? key.target).isSome
  edgeIndex_iff : ∀ {key : EdgeKey} {id : Nat},
    graph.edgeIndex[key]? = some id ↔ graph.edgeKey? id = some key
  mem_leaving : ∀ {node id : Nat}, id ∈ listAt graph.leaving node ↔
    (graph.edgeKey? id).map (·.source) = some node
  leaving_increasing : ∀ node, (listAt graph.leaving node).Pairwise (· < ·)
  mem_entering : ∀ {node id : Nat}, id ∈ listAt graph.entering node ↔
    (graph.edgeKey? id).map (·.target) = some node
  entering_increasing : ∀ node, (listAt graph.entering node).Pairwise (· < ·)

/-- A number has the key of the node that has the number. -/
theorem key?_eq_some {graph : Graph} {id : Nat} {key : EntityKey} :
    graph.key? id = some key ↔ ∃ node, graph.nodeTable[id]? = some node ∧ node.key = key := by
  simp [key?]

/-- A node has its key under its number. -/
theorem key?_of_node {graph : Graph} {id : Nat} {node : Node}
    (found : graph.nodeTable[id]? = some node) : graph.key? id = some node.key := by
  simp [key?, found]

/-- A number has the key of the edge that has the number. -/
theorem edgeKey?_eq_some {graph : Graph} {id : Nat} {key : EdgeKey} :
    graph.edgeKey? id = some key ↔ ∃ edge, graph.edgeTable[id]? = some edge ∧ edge.key = key := by
  simp [edgeKey?]

/-- An edge has its key under its number. -/
theorem edgeKey?_of_edge {graph : Graph} {id : Nat} {edge : Edge}
    (found : graph.edgeTable[id]? = some edge) : graph.edgeKey? id = some edge.key := by
  simp [edgeKey?, found]

namespace Sound

variable {graph : Graph}

/-- A key leads to the node that carries it. -/
theorem nodeByKey?_eq_some (sound : graph.Sound) {key : EntityKey} {id : Nat} :
    graph.nodeByKey? key = some id ↔ graph.key? id = some key :=
  sound.keyIndex_iff

/-- No two nodes carry one key. -/
theorem id_eq_of_key? (sound : graph.Sound) {first second : Nat} {key : EntityKey}
    (firstKey : graph.key? first = some key) (secondKey : graph.key? second = some key) :
    first = second := by
  have one := sound.nodeByKey?_eq_some.mpr firstKey
  have other := sound.nodeByKey?_eq_some.mpr secondKey
  rw [one] at other
  exact Option.some.inj other

/-- The numbers of nodes are below the next one. -/
theorem lt_of_key? (sound : graph.Sound) {id : Nat} {key : EntityKey}
    (carried : graph.key? id = some key) : id < graph.nextNode := by
  obtain ⟨node, found, _⟩ := key?_eq_some.mp carried
  exact sound.node_lt found

/-- The numbers of edges are below the next one. -/
theorem lt_of_edgeKey? (sound : graph.Sound) {id : Nat} {key : EdgeKey}
    (carried : graph.edgeKey? id = some key) : id < graph.nextEdge := by
  obtain ⟨edge, found, _⟩ := edgeKey?_eq_some.mp carried
  exact sound.edge_lt found

/-- The number that is given next is free. -/
theorem key?_nextNode (sound : graph.Sound) : graph.key? graph.nextNode = none := by
  cases carried : graph.key? graph.nextNode with
  | none => rfl
  | some key => exact absurd (sound.lt_of_key? carried) (Nat.lt_irrefl _)

/-- The next number of an edge is free. -/
theorem edgeKey?_nextEdge (sound : graph.Sound) : graph.edgeKey? graph.nextEdge = none := by
  cases carried : graph.edgeKey? graph.nextEdge with
  | none => rfl
  | some key => exact absurd (sound.lt_of_edgeKey? carried) (Nat.lt_irrefl _)

/-- No two edges have the same ends and the same relation. -/
theorem id_eq_of_edgeKey? (sound : graph.Sound) {first second : Nat} {key : EdgeKey}
    (firstKey : graph.edgeKey? first = some key) (secondKey : graph.edgeKey? second = some key) :
    first = second := by
  have one := sound.edgeIndex_iff.mpr firstKey
  have other := sound.edgeIndex_iff.mpr secondKey
  rw [one] at other
  exact Option.some.inj other

end Sound

/-- The graph in which a node is replaced. -/
def withNode (graph : Graph) (id : Nat) (node : Node) : Graph :=
  { graph with nodeTable := graph.nodeTable.insert id node }

/-- One node is replaced, and all others stay. -/
theorem nodeTable_withNode (graph : Graph) (id other : Nat) (node : Node) :
    (graph.withNode id node).nodeTable[other]? =
      if id = other then some node else graph.nodeTable[other]? := by
  simp [withNode, Std.ExtTreeMap.getElem?_insert]

/-- Replacing a node by one of the same key keeps all keys. -/
theorem key?_withNode {graph : Graph} {id : Nat} {former node : Node}
    (found : graph.nodeTable[id]? = some former) (sameKey : node.key = former.key) (other : Nat) :
    (graph.withNode id node).key? other = graph.key? other := by
  unfold key?
  rw [nodeTable_withNode]
  by_cases same : id = other
  · subst same
    simp [found, sameKey]
  · simp [same]

/-- Replacing a node by one of the same number and key keeps a graph sound. -/
theorem Sound.withNode {graph : Graph} (sound : graph.Sound) {id : Nat} {former node : Node}
    (found : graph.nodeTable[id]? = some former) (sameId : node.id = former.id)
    (sameKey : node.key = former.key) (family : node.kind.family = node.key.family) :
    (graph.withNode id node).Sound := by
  have keys := key?_withNode found sameKey
  constructor
  case node_id =>
    intro other held at_
    have := sound.node_id found
    have := @sound.node_id other
    grind [nodeTable_withNode]
  case node_lt =>
    intro other held at_
    have := sound.node_lt found
    have := @sound.node_lt other
    have next : (graph.withNode id node).nextNode = graph.nextNode := rfl
    grind [nodeTable_withNode]
  case kind_family =>
    intro other held at_
    have := @sound.kind_family other
    grind [nodeTable_withNode]
  case keyIndex_iff => intro key other; rw [keys]; exact sound.keyIndex_iff
  case mem_named => intro name other; rw [keys]; exact sound.mem_named
  case root_key => rw [keys]; exact sound.root_key
  case edge_ends => intro edge key at_; rw [keys, keys]; exact sound.edge_ends at_
  case named_increasing => exact sound.named_increasing
  case edge_id => exact sound.edge_id
  case edge_lt => exact sound.edge_lt
  case edgeIndex_iff => exact sound.edgeIndex_iff
  case mem_leaving => exact sound.mem_leaving
  case leaving_increasing => exact sound.leaving_increasing
  case mem_entering => exact sound.mem_entering
  case entering_increasing => exact sound.entering_increasing

/-- A node of the table can be read. -/
theorem node_of_nodeTable {graph : Graph} {id : Nat} {node : Node}
    (found : graph.nodeTable[id]? = some node) : graph.node id = .ok node := by
  simp [Graph.node, found]

/-- The attributes of a node can be set. -/
theorem setAttributes_of_node {graph : Graph} {id : Nat} {node : Node} (attributes : Attributes)
    (found : graph.nodeTable[id]? = some node) :
    graph.setAttributes id attributes = .ok (graph.withNode id { node with attributes }) := by
  simp [setAttributes, Graph.node, found, withNode, pure, Except.pure, bind, Except.bind]

/-- A node can be given any kind of its family. -/
theorem setKind_of_node {graph : Graph} {id : Nat} {node : Node} {kind : EntityKind}
    (found : graph.nodeTable[id]? = some node) (family : node.key.family = kind.family) :
    graph.setKind id kind = .ok (graph.withNode id { node with kind }) := by
  simp [setKind, Graph.node, found, family, withNode, pure, Except.pure, bind, Except.bind]

/-- A node cannot be given a kind outside its family. -/
theorem setKind_of_other_family {graph : Graph} {id : Nat} {node : Node} {kind : EntityKind}
    (found : graph.nodeTable[id]? = some node) (family : node.key.family ≠ kind.family) :
    graph.setKind id kind = .error (.kindChange node.key kind) := by
  simp [setKind, Graph.node, found, family, bind, Except.bind]

/-- A new node is in the table under its number, and all others stay. -/
theorem nodeTable_addNode (graph : Graph) (key : EntityKey) (kind : EntityKind)
    (attributes : Attributes) (id : Nat) :
    (graph.addNode key kind attributes).nodeTable[id]? =
      if graph.nextNode = id then some ⟨graph.nextNode, key, kind, attributes⟩
      else graph.nodeTable[id]? := by
  simp [addNode, Std.ExtTreeMap.getElem?_insert]

/-- A new node has its key under its number, and all others keep theirs. -/
theorem key?_addNode (graph : Graph) (key : EntityKey) (kind : EntityKind)
    (attributes : Attributes) (id : Nat) :
    (graph.addNode key kind attributes).key? id =
      if graph.nextNode = id then some key else graph.key? id := by
  unfold key?
  rw [nodeTable_addNode]
  by_cases new : graph.nextNode = id <;> simp [new]

/-- A node under a new key keeps a graph sound. -/
theorem Sound.addNode {graph : Graph} (sound : graph.Sound) {key : EntityKey} {kind : EntityKind}
    (attributes : Attributes) (fresh : graph.nodeByKey? key = none)
    (family : kind.family = key.family) : (graph.addNode key kind attributes).Sound := by
  have keys := graph.key?_addNode key kind attributes
  have free := sound.key?_nextNode
  constructor
  case node_id =>
    intro id node found
    have := @sound.node_id id
    grind [nodeTable_addNode]
  case node_lt =>
    intro id node found
    have := @sound.node_lt id
    have next : (graph.addNode key kind attributes).nextNode = graph.nextNode + 1 := rfl
    grind [nodeTable_addNode]
  case kind_family =>
    intro id node found
    have := @sound.kind_family id
    grind [nodeTable_addNode]
  case keyIndex_iff =>
    intro other id
    have old := @sound.keyIndex_iff other id
    have unused : graph.keyIndex[key]? = none := fresh
    have index : (graph.addNode key kind attributes).keyIndex[other]? =
        if key = other then some graph.nextNode else graph.keyIndex[other]? := by
      simp [Graph.addNode, Std.ExtTreeMap.getElem?_insert]
    grind
  case mem_named =>
    intro name id
    have old := @sound.mem_named name id
    have index : id ∈ listAt (graph.addNode key kind attributes).nameIndex name ↔
        id ∈ listAt graph.nameIndex name ∨ (name = key.name ∧ id = graph.nextNode) :=
      mem_listAt_appendAt
    grind
  case named_increasing =>
    intro name
    refine increasing_appendAt (sound.named_increasing name) fun listed member => ?_
    obtain ⟨carried, at_, _⟩ := Option.map_eq_some_iff.mp (sound.mem_named.mp member)
    exact sound.lt_of_key? at_
  case root_key =>
    have below := sound.lt_of_key? sound.root_key
    rw [keys, if_neg (Nat.ne_of_gt below)]
    exact sound.root_key
  case edge_ends =>
    intro id edge at_
    obtain ⟨source, target⟩ := sound.edge_ends (show graph.edgeKey? id = some edge from at_)
    grind
  case edge_id => exact sound.edge_id
  case edge_lt => exact sound.edge_lt
  case edgeIndex_iff => exact sound.edgeIndex_iff
  case mem_leaving => exact sound.mem_leaving
  case leaving_increasing => exact sound.leaving_increasing
  case mem_entering => exact sound.mem_entering
  case entering_increasing => exact sound.entering_increasing

/-- A key that no node has can be inserted with a kind of its family. -/
theorem insert_of_fresh {graph : Graph} {key : EntityKey} {kind : EntityKind}
    (attributes : Attributes) (fresh : graph.nodeByKey? key = none)
    (family : kind.family = key.family) :
    graph.insert key kind attributes = .ok (graph.addNode key kind attributes, graph.nextNode) := by
  have unused : graph.keyIndex.contains key = false := by
    rw [Std.ExtTreeMap.contains_eq_isSome_getElem?, Option.isSome_eq_false_iff]
    exact Option.isNone_iff_eq_none.mpr fresh
  simp [insert, unused, family]

/-- A key cannot be inserted with a kind outside its family. -/
theorem insert_of_other_family {graph : Graph} {key : EntityKey} {kind : EntityKind}
    (attributes : Attributes) (fresh : graph.nodeByKey? key = none)
    (family : kind.family ≠ key.family) :
    graph.insert key kind attributes = .error (.kindOutsideFamily kind key) := by
  have unused : graph.keyIndex.contains key = false := by
    rw [Std.ExtTreeMap.contains_eq_isSome_getElem?, Option.isSome_eq_false_iff]
    exact Option.isNone_iff_eq_none.mpr fresh
  simp [insert, unused, family]

/-- The graph of the global namespace alone is sound. -/
theorem sound_empty : empty.Sound := by
  have table : ∀ id : Nat, empty.nodeTable[id]? =
      if 0 = id then some ⟨0, .global, .namespaceScope, ∅⟩ else none := by
    intro id
    simp [empty, addNode, Std.ExtTreeMap.getElem?_insert]
  have keys : ∀ id : Nat, empty.key? id = if 0 = id then some .global else none := by
    intro id
    rw [key?, table]
    by_cases first : 0 = id <;> simp [first]
  have noEdges : ∀ id : Nat, empty.edgeTable[id]? = none := by
    intro id
    simp [empty, addNode]
  have noEdgeKeys : ∀ id : Nat, empty.edgeKey? id = none := by
    intro id
    simp [edgeKey?, noEdges]
  have next : empty.nextNode = 1 := rfl
  constructor
  case node_id => intro id node found; grind
  case node_lt => intro id node found; grind
  case kind_family =>
    intro id node found
    have family : EntityKind.namespaceScope.family = EntityKey.global.family := rfl
    grind
  case keyIndex_iff =>
    intro key id
    have index : empty.keyIndex[key]? = if EntityKey.global = key then some 0 else none := by
      simp [empty, addNode, Std.ExtTreeMap.getElem?_insert]
    grind
  case mem_named =>
    intro name id
    have index : id ∈ listAt empty.nameIndex name ↔
        id ∈ listAt (∅ : Std.ExtTreeMap ScopedName (List Nat)) name ∨
          (name = EntityKey.global.name ∧ id = 0) := mem_listAt_appendAt
    grind [listAt_empty]
  case named_increasing =>
    intro name
    exact increasing_appendAt (by simp) (by simp)
  case root_key => rw [keys]; rfl
  case edgeIndex_iff =>
    intro key id
    have index : empty.edgeIndex[key]? = none := by simp [empty, addNode]
    grind
  case mem_leaving =>
    intro node id
    have index : listAt empty.leaving node = [] := listAt_empty node
    grind
  case mem_entering =>
    intro node id
    have index : listAt empty.entering node = [] := listAt_empty node
    grind
  case leaving_increasing => intro node; simp [empty, addNode]
  case entering_increasing => intro node; simp [empty, addNode]
  all_goals intro id edge found; grind

end Graph

end DeclGraph
