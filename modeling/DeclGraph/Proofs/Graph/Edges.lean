import DeclGraph.Proofs.Graph.Sound

/-!
# Changes of edges

Relating two nodes, taking an edge away and removing a node with all its edges
keep a graph sound. What such a change does is said in terms of the pairs that
are related, and, where the order of edges matters to lookups, in terms of the
links that leave a node.
-/

namespace DeclGraph

namespace Graph

/-- Two nodes are joined by an edge of a relation. -/
def Related (graph : Graph) (source : Nat) (relation : Relation) (target : Nat) : Prop :=
  ∃ id, graph.edgeKey? id = some ⟨source, target, relation⟩

/-- The graph in which the edge between two nodes has been added, or has
absorbed the attributes where it was there before. -/
def withEdge (graph : Graph) (key : EdgeKey) (attributes : Attributes) : Graph :=
  match graph.edgeIndex[key]? with
  | some id =>
    { graph with
      edgeTable := graph.edgeTable.modify id fun edge =>
        { edge with attributes := edge.attributes.absorb attributes } }
  | none => graph.addEdge key attributes

/-- What has a key is there as a node. -/
theorem isSome_key?_iff {graph : Graph} {id : Nat} :
    (graph.key? id).isSome ↔ ∃ node, graph.nodeTable[id]? = some node := by
  rw [key?, Option.isSome_map]
  exact Option.isSome_iff_exists

/-- Two nodes that are there can be connected. -/
theorem connect_of_nodes {graph : Graph} {source target : Nat} (relation : Relation)
    (attributes : Attributes) (sourceThere : (graph.key? source).isSome)
    (targetThere : (graph.key? target).isSome) :
    ∃ id, graph.connect source target relation attributes =
      .ok (graph.withEdge ⟨source, target, relation⟩ attributes, id) := by
  obtain ⟨sourceNode, foundSource⟩ := isSome_key?_iff.mp sourceThere
  obtain ⟨targetNode, foundTarget⟩ := isSome_key?_iff.mp targetThere
  cases known : graph.edgeIndex[(⟨source, target, relation⟩ : EdgeKey)]? with
  | some id =>
    exact ⟨id, by simp [connect, Graph.node, foundSource, foundTarget, known, withEdge, bind,
      Except.bind, pure, Except.pure]⟩
  | none =>
    exact ⟨graph.nextEdge, by simp [connect, Graph.node, foundSource, foundTarget, known, withEdge,
      bind, Except.bind, pure, Except.pure]⟩

section WithEdge

variable {graph : Graph} {key : EdgeKey} {attributes : Attributes}

/-- A new edge is in the table under its number, and all others stay. -/
theorem edgeTable_addEdge (id : Nat) :
    (graph.addEdge key attributes).edgeTable[id]? =
      if graph.nextEdge = id then
        some ⟨graph.nextEdge, key.source, key.target, key.relation, attributes⟩
      else graph.edgeTable[id]? := by
  simp [addEdge, Std.ExtTreeMap.getElem?_insert]

/-- A new edge has its key under its number, and all others keep theirs. -/
theorem edgeKey?_addEdge (id : Nat) :
    (graph.addEdge key attributes).edgeKey? id =
      if graph.nextEdge = id then some key else graph.edgeKey? id := by
  unfold edgeKey?
  rw [edgeTable_addEdge]
  by_cases new : graph.nextEdge = id <;> simp [new, Edge.key]

/-- An edge leaves the table of nodes alone. -/
@[simp] theorem nodeTable_withEdge : (graph.withEdge key attributes).nodeTable = graph.nodeTable := by
  unfold withEdge
  split <;> rfl

/-- An edge takes no number of a node. -/
@[simp] theorem nextNode_withEdge : (graph.withEdge key attributes).nextNode = graph.nextNode := by
  unfold withEdge
  split <;> rfl

/-- An edge leaves the index of keys alone. -/
@[simp] theorem keyIndex_withEdge : (graph.withEdge key attributes).keyIndex = graph.keyIndex := by
  unfold withEdge
  split <;> rfl

/-- An edge leaves the key of every node. -/
@[simp] theorem key?_withEdge (id : Nat) : (graph.withEdge key attributes).key? id = graph.key? id := by
  simp [key?]

/-- An edge between two nodes keeps a graph sound. -/
theorem Sound.addEdge (sound : graph.Sound) (fresh : graph.edgeIndex[key]? = none)
    (sourceThere : (graph.key? key.source).isSome) (targetThere : (graph.key? key.target).isSome) :
    (graph.addEdge key attributes).Sound := by
  have keys : ∀ id, (graph.addEdge key attributes).edgeKey? id = _ := edgeKey?_addEdge
  have free := sound.edgeKey?_nextEdge
  constructor
  case edge_id =>
    intro id edge found
    have := @sound.edge_id id
    grind [edgeTable_addEdge]
  case edge_lt =>
    intro id edge found
    have := @sound.edge_lt id
    have next : (graph.addEdge key attributes).nextEdge = graph.nextEdge + 1 := rfl
    grind [edgeTable_addEdge]
  case edge_ends =>
    intro id other at_
    have old := @sound.edge_ends id other
    have same : ∀ node, (graph.addEdge key attributes).key? node = graph.key? node := fun _ => rfl
    grind
  case edgeIndex_iff =>
    intro other id
    have old := @sound.edgeIndex_iff other id
    have index : (graph.addEdge key attributes).edgeIndex[other]? =
        if key = other then some graph.nextEdge else graph.edgeIndex[other]? := by
      simp [Graph.addEdge, Std.ExtTreeMap.getElem?_insert]
    grind
  case mem_leaving =>
    intro node id
    have old := @sound.mem_leaving node id
    have index : id ∈ listAt (graph.addEdge key attributes).leaving node ↔
        id ∈ listAt graph.leaving node ∨ (node = key.source ∧ id = graph.nextEdge) :=
      mem_listAt_appendAt
    grind
  case mem_entering =>
    intro node id
    have old := @sound.mem_entering node id
    have index : id ∈ listAt (graph.addEdge key attributes).entering node ↔
        id ∈ listAt graph.entering node ∨ (node = key.target ∧ id = graph.nextEdge) :=
      mem_listAt_appendAt
    grind
  case leaving_increasing =>
    intro node
    refine increasing_appendAt (sound.leaving_increasing node) fun listed member => ?_
    obtain ⟨carried, at_, _⟩ := Option.map_eq_some_iff.mp (sound.mem_leaving.mp member)
    exact sound.lt_of_edgeKey? at_
  case entering_increasing =>
    intro node
    refine increasing_appendAt (sound.entering_increasing node) fun listed member => ?_
    obtain ⟨carried, at_, _⟩ := Option.map_eq_some_iff.mp (sound.mem_entering.mp member)
    exact sound.lt_of_edgeKey? at_
  case node_id => exact sound.node_id
  case node_lt => exact sound.node_lt
  case kind_family => exact sound.kind_family
  case keyIndex_iff => exact sound.keyIndex_iff
  case mem_named => exact sound.mem_named
  case named_increasing => exact sound.named_increasing
  case root_key => exact sound.root_key

/-- The graph in which one edge has absorbed attributes. -/
def absorbing (graph : Graph) (id : Nat) (attributes : Attributes) : Graph :=
  { graph with
    edgeTable := graph.edgeTable.modify id fun edge =>
      { edge with attributes := edge.attributes.absorb attributes } }

/-- Attributes are absorbed by the edge of one number. -/
theorem edgeTable_absorbing (id other : Nat) :
    (graph.absorbing id attributes).edgeTable[other]? =
      if id = other then
        graph.edgeTable[other]?.map fun edge =>
          { edge with attributes := edge.attributes.absorb attributes }
      else graph.edgeTable[other]? := by
  unfold absorbing
  rw [Std.ExtTreeMap.getElem?_modify]
  by_cases same : id = other
  · subst same
    simp
  · simp [same]

/-- Absorbing attributes leaves the key of every edge. -/
theorem edgeKey?_absorbing (id other : Nat) :
    (graph.absorbing id attributes).edgeKey? other = graph.edgeKey? other := by
  unfold edgeKey?
  rw [edgeTable_absorbing]
  by_cases same : id = other
  · simp [same, Function.comp_def, Edge.key]
  · simp [same]

/-- Absorbing attributes leaves a sound graph, as it changes the table of edges only. -/
theorem Sound.absorbing (sound : graph.Sound) (id : Nat) :
    (graph.absorbing id attributes).Sound := by
  have keys : ∀ other, (graph.absorbing id attributes).edgeKey? other = _ := edgeKey?_absorbing id
  constructor
  case edge_id =>
    intro other edge found
    have := @sound.edge_id other
    rw [edgeTable_absorbing] at found
    grind
  case edge_lt =>
    intro other edge found
    have := @sound.edge_lt other
    have next : (graph.absorbing id attributes).nextEdge = graph.nextEdge := rfl
    rw [edgeTable_absorbing] at found
    grind
  case edge_ends => intro other held; rw [keys]; exact sound.edge_ends
  case edgeIndex_iff => intro held other; rw [keys]; exact sound.edgeIndex_iff
  case mem_leaving => intro node other; rw [keys]; exact sound.mem_leaving
  case mem_entering => intro node other; rw [keys]; exact sound.mem_entering
  case leaving_increasing => exact sound.leaving_increasing
  case entering_increasing => exact sound.entering_increasing
  case node_id => exact sound.node_id
  case node_lt => exact sound.node_lt
  case kind_family => exact sound.kind_family
  case keyIndex_iff => exact sound.keyIndex_iff
  case mem_named => exact sound.mem_named
  case named_increasing => exact sound.named_increasing
  case root_key => exact sound.root_key

/-- An edge that is known absorbs the attributes. -/
theorem withEdge_of_known {id : Nat} (known : graph.edgeIndex[key]? = some id) :
    graph.withEdge key attributes = graph.absorbing id attributes := by
  simp [withEdge, known, absorbing]

/-- An edge that is not known is added. -/
theorem withEdge_of_fresh (fresh : graph.edgeIndex[key]? = none) :
    graph.withEdge key attributes = graph.addEdge key attributes := by
  simp [withEdge, fresh]

/-- An edge between nodes that are there leaves a sound graph, whether it is new or known. -/
theorem Sound.withEdge (sound : graph.Sound) (sourceThere : (graph.key? key.source).isSome)
    (targetThere : (graph.key? key.target).isSome) : (graph.withEdge key attributes).Sound := by
  cases known : graph.edgeIndex[key]? with
  | some id => rw [withEdge_of_known known]; exact sound.absorbing id
  | none => rw [withEdge_of_fresh known]; exact sound.addEdge known sourceThere targetThere

/-- Relating two nodes relates them and no others. -/
theorem Sound.related_withEdge (sound : graph.Sound) {source target : Nat} {relation : Relation} :
    (graph.withEdge key attributes).Related source relation target ↔
      graph.Related source relation target ∨ key = ⟨source, target, relation⟩ := by
  unfold Related
  cases known : graph.edgeIndex[key]? with
  | some id =>
    simp only [withEdge_of_known known, edgeKey?_absorbing]
    constructor
    · exact Or.inl
    · rintro (there | rfl)
      · exact there
      · exact ⟨id, sound.edgeIndex_iff.mp known⟩
  | none =>
    simp only [withEdge_of_fresh known, edgeKey?_addEdge]
    have free := sound.edgeKey?_nextEdge
    constructor
    · rintro ⟨id, at_⟩
      by_cases new : graph.nextEdge = id
      · rw [if_pos new] at at_
        exact .inr (Option.some.inj at_)
      · rw [if_neg new] at at_
        exact .inl ⟨id, at_⟩
    · rintro (⟨id, at_⟩ | rfl)
      · have old : graph.nextEdge ≠ id := by
          rintro rfl
          rw [free] at at_
          cases at_
        exact ⟨id, by rw [if_neg old]; exact at_⟩
      · exact ⟨graph.nextEdge, by simp⟩

end WithEdge

section Erasing

variable {graph : Graph}

/-- Erasing takes the edge of one number. -/
theorem edgeTable_eraseEdge (graph : Graph) (id other : Nat) :
    (graph.eraseEdge id).edgeTable[other]? =
      if id = other then none else graph.edgeTable[other]? := by
  unfold eraseEdge
  cases found : graph.edgeTable[id]? with
  | none =>
    by_cases same : id = other
    · subst same
      simp [found]
    · simp [same]
  | some edge =>
    show (graph.edgeTable.erase id)[other]? = _
    rw [Std.ExtTreeMap.getElem?_erase]
    simp

/-- Erasing takes the key of one number. -/
theorem edgeKey?_eraseEdge (graph : Graph) (id other : Nat) :
    (graph.eraseEdge id).edgeKey? other = if id = other then none else graph.edgeKey? other := by
  unfold edgeKey?
  rw [edgeTable_eraseEdge]
  by_cases same : id = other <;> simp [same]

/-- Erasing an edge leaves the nodes. -/
@[simp] theorem nodeTable_eraseEdge (graph : Graph) (id : Nat) :
    (graph.eraseEdge id).nodeTable = graph.nodeTable := by
  unfold eraseEdge
  split <;> rfl

/-- Erasing an edge gives no number of a node back. -/
@[simp] theorem nextNode_eraseEdge (graph : Graph) (id : Nat) :
    (graph.eraseEdge id).nextNode = graph.nextNode := by
  unfold eraseEdge
  split <;> rfl

/-- Erasing an edge leaves the key of every node. -/
@[simp] theorem key?_eraseEdge (graph : Graph) (id node : Nat) :
    (graph.eraseEdge id).key? node = graph.key? node := by
  simp [key?]

/-- Erasing an edge leaves a sound graph: it goes from the table, from the index and from the lists
of both its ends. -/
theorem Sound.eraseEdge (sound : graph.Sound) (id : Nat) : (graph.eraseEdge id).Sound := by
  cases found : graph.edgeTable[id]? with
  | none =>
    have same : graph.eraseEdge id = graph := by simp [Graph.eraseEdge, found]
    rw [same]
    exact sound
  | some edge =>
    have keys := graph.edgeKey?_eraseEdge id
    have at_ := edgeKey?_of_edge found
    have erased : graph.eraseEdge id =
        { graph with
          edgeTable := graph.edgeTable.erase id
          edgeIndex := graph.edgeIndex.erase edge.key
          leaving := removeAt graph.leaving edge.source id
          entering := removeAt graph.entering edge.target id } := by
      simp [Graph.eraseEdge, found]
    constructor
    case edge_id =>
      intro other held there
      have := @sound.edge_id other
      grind [edgeTable_eraseEdge]
    case edge_lt =>
      intro other held there
      have := @sound.edge_lt other
      have next : (graph.eraseEdge id).nextEdge = graph.nextEdge := by rw [erased]
      grind [edgeTable_eraseEdge]
    case edge_ends =>
      intro other held there
      have := @sound.edge_ends other held
      grind [key?_eraseEdge]
    case edgeIndex_iff =>
      intro held other
      have old := @sound.edgeIndex_iff held other
      have unique : graph.edgeKey? other = some edge.key → other = id :=
        fun both => sound.id_eq_of_edgeKey? both at_
      have index : (graph.eraseEdge id).edgeIndex[held]? =
          if edge.key = held then none else graph.edgeIndex[held]? := by
        rw [erased]
        simp [Std.ExtTreeMap.getElem?_erase]
      grind
    case mem_leaving =>
      intro node other
      have old := @sound.mem_leaving node other
      have index : other ∈ listAt (graph.eraseEdge id).leaving node ↔
          other ∈ listAt graph.leaving node ∧ (node = edge.source → other ≠ id) := by
        rw [erased]
        exact mem_listAt_removeAt
      have ends : edge.key.source = edge.source := rfl
      grind
    case mem_entering =>
      intro node other
      have old := @sound.mem_entering node other
      have index : other ∈ listAt (graph.eraseEdge id).entering node ↔
          other ∈ listAt graph.entering node ∧ (node = edge.target → other ≠ id) := by
        rw [erased]
        exact mem_listAt_removeAt
      have ends : edge.key.target = edge.target := rfl
      grind
    case leaving_increasing =>
      intro node
      rw [erased]
      exact increasing_removeAt (sound.leaving_increasing node)
    case entering_increasing =>
      intro node
      rw [erased]
      exact increasing_removeAt (sound.entering_increasing node)
    case node_id => rw [erased]; exact sound.node_id
    case node_lt => rw [erased]; exact sound.node_lt
    case kind_family => rw [erased]; exact sound.kind_family
    case keyIndex_iff => rw [erased]; exact sound.keyIndex_iff
    case mem_named => rw [erased]; exact sound.mem_named
    case named_increasing => rw [erased]; exact sound.named_increasing
    case root_key => rw [erased]; exact sound.root_key

/-- The graph without some of its edges. -/
def eraseEdges (graph : Graph) (ids : List Nat) : Graph := ids.foldl Graph.eraseEdge graph

/-- Erasing edges one after the other leaves a sound graph. -/
theorem Sound.eraseEdges (sound : graph.Sound) (ids : List Nat) : (graph.eraseEdges ids).Sound := by
  induction ids generalizing graph with
  | nil => exact sound
  | cons id rest step => exact step (sound.eraseEdge id)

/-- Erasing edges leaves the nodes. -/
@[simp] theorem nodeTable_eraseEdges (graph : Graph) (ids : List Nat) :
    (graph.eraseEdges ids).nodeTable = graph.nodeTable := by
  induction ids generalizing graph with
  | nil => rfl
  | cons id rest step => exact (step (graph.eraseEdge id)).trans (by simp)

/-- Erasing edges takes those of the given numbers. -/
theorem edgeTable_eraseEdges (graph : Graph) (ids : List Nat) (other : Nat) :
    (graph.eraseEdges ids).edgeTable[other]? =
      if other ∈ ids then none else graph.edgeTable[other]? := by
  induction ids generalizing graph with
  | nil => simp [eraseEdges]
  | cons id rest step =>
    have rested : (graph.eraseEdges (id :: rest)).edgeTable[other]? =
        ((graph.eraseEdge id).eraseEdges rest).edgeTable[other]? := rfl
    rw [rested, step, edgeTable_eraseEdge]
    by_cases inRest : other ∈ rest
    · simp [inRest]
    · by_cases same : id = other
      · simp [same]
      · simp [inRest, same, Ne.symm same]

/-- Erasing edges takes the keys of the given numbers. -/
theorem edgeKey?_eraseEdges (graph : Graph) (ids : List Nat) (other : Nat) :
    (graph.eraseEdges ids).edgeKey? other = if other ∈ ids then none else graph.edgeKey? other := by
  unfold edgeKey?
  rw [edgeTable_eraseEdges]
  by_cases gone : other ∈ ids <;> simp [gone]

/-- The graph without a node that no edge reaches. -/
def withoutNode (graph : Graph) (id : Nat) (key : EntityKey) : Graph :=
  { graph with
    nodeTable := graph.nodeTable.erase id
    keyIndex := graph.keyIndex.erase key
    nameIndex := removeAt graph.nameIndex key.name id }

/-- Without one node the others are there. -/
theorem nodeTable_withoutNode (id other : Nat) (key : EntityKey) :
    (graph.withoutNode id key).nodeTable[other]? =
      if id = other then none else graph.nodeTable[other]? := by
  simp [withoutNode, Std.ExtTreeMap.getElem?_erase]

/-- Without one node the others have their keys. -/
theorem key?_withoutNode (id other : Nat) (key : EntityKey) :
    (graph.withoutNode id key).key? other = if id = other then none else graph.key? other := by
  unfold key?
  rw [nodeTable_withoutNode]
  by_cases same : id = other <;> simp [same]

/-- A node that no edge reaches can be taken away, unless it is the global
namespace. -/
theorem Sound.withoutNode (sound : graph.Sound) {id : Nat} {key : EntityKey}
    (carried : graph.key? id = some key) (notRoot : id ≠ root)
    (bare : ∀ edge held, graph.edgeKey? edge = some held → held.source ≠ id ∧ held.target ≠ id) :
    (graph.withoutNode id key).Sound := by
  have keys : ∀ other, (graph.withoutNode id key).key? other = _ :=
    fun other => key?_withoutNode id other key
  constructor
  case node_id =>
    intro other node found
    have := @sound.node_id other
    grind [nodeTable_withoutNode]
  case node_lt =>
    intro other node found
    have := @sound.node_lt other
    have next : (graph.withoutNode id key).nextNode = graph.nextNode := rfl
    grind [nodeTable_withoutNode]
  case kind_family =>
    intro other node found
    have := @sound.kind_family other
    grind [nodeTable_withoutNode]
  case keyIndex_iff =>
    intro held other
    have old := @sound.keyIndex_iff held other
    have unique : graph.key? other = some key → other = id :=
      fun both => sound.id_eq_of_key? both carried
    have index : (graph.withoutNode id key).keyIndex[held]? =
        if key = held then none else graph.keyIndex[held]? := by
      simp [Graph.withoutNode, Std.ExtTreeMap.getElem?_erase]
    grind
  case mem_named =>
    intro name other
    have old := @sound.mem_named name other
    have index : other ∈ listAt (graph.withoutNode id key).nameIndex name ↔
        other ∈ listAt graph.nameIndex name ∧ (name = key.name → other ≠ id) :=
      mem_listAt_removeAt
    grind
  case named_increasing => intro name; exact increasing_removeAt (sound.named_increasing name)
  case root_key =>
    rw [keys, if_neg notRoot]
    exact sound.root_key
  case edge_ends =>
    intro edge held there
    obtain ⟨source, target⟩ := sound.edge_ends (show graph.edgeKey? edge = some held from there)
    obtain ⟨notSource, notTarget⟩ := bare edge held there
    rw [keys, keys, if_neg (Ne.symm notSource), if_neg (Ne.symm notTarget)]
    exact ⟨source, target⟩
  case edge_id => exact sound.edge_id
  case edge_lt => exact sound.edge_lt
  case edgeIndex_iff => exact sound.edgeIndex_iff
  case mem_leaving => exact sound.mem_leaving
  case leaving_increasing => exact sound.leaving_increasing
  case mem_entering => exact sound.mem_entering
  case entering_increasing => exact sound.entering_increasing

/-- The graph without a node and the edges at it. -/
def withoutNodeAndEdges (graph : Graph) (id : Nat) (key : EntityKey) : Graph :=
  (graph.eraseEdges (graph.edgesAt id)).withoutNode id key

/-- A node other than the root can be removed, with its edges. -/
theorem removeNode_of_node {id : Nat} {node : Node} (found : graph.nodeTable[id]? = some node)
    (notRoot : id ≠ root) :
    graph.removeNode id = .ok (graph.withoutNodeAndEdges id node.key) := by
  simp [removeNode, notRoot, Graph.node, found, withoutNodeAndEdges, withoutNode, eraseEdges, bind,
    Except.bind, pure, Except.pure]

/-- The edges at a node are those that start or end there. -/
theorem Sound.mem_edgesAt (sound : graph.Sound) {id edge : Nat} :
    edge ∈ graph.edgesAt id ↔
      ∃ held, graph.edgeKey? edge = some held ∧ (held.source = id ∨ held.target = id) := by
  rw [edgesAt, List.mem_append, sound.mem_leaving, sound.mem_entering]
  cases graph.edgeKey? edge <;> simp

/-- With a node its edges go, and no other. -/
theorem Sound.edgeKey?_withoutNodeAndEdges (sound : graph.Sound) {id edge : Nat}
    {key : EntityKey} {held : EdgeKey} :
    (graph.withoutNodeAndEdges id key).edgeKey? edge = some held ↔
      graph.edgeKey? edge = some held ∧ held.source ≠ id ∧ held.target ≠ id := by
  have same : (graph.withoutNodeAndEdges id key).edgeKey? edge =
      (graph.eraseEdges (graph.edgesAt id)).edgeKey? edge := rfl
  rw [same, edgeKey?_eraseEdges]
  have gone : edge ∈ graph.edgesAt id ↔ _ := sound.mem_edgesAt
  grind

/-- With a node its key goes, and no other. -/
theorem key?_withoutNodeAndEdges (id other : Nat) (key : EntityKey) :
    (graph.withoutNodeAndEdges id key).key? other =
      if id = other then none else graph.key? other := by
  unfold withoutNodeAndEdges
  rw [key?_withoutNode]
  simp [key?]

/-- With a node and its edges the other nodes stay. -/
theorem nodeTable_withoutNodeAndEdges (id other : Nat) (key : EntityKey) :
    (graph.withoutNodeAndEdges id key).nodeTable[other]? =
      if id = other then none else graph.nodeTable[other]? := by
  unfold withoutNodeAndEdges
  rw [nodeTable_withoutNode]
  simp

/-- Taking a node away with its edges keeps a graph sound. -/
theorem Sound.withoutNodeAndEdges (sound : graph.Sound) {id : Nat} {key : EntityKey}
    (carried : graph.key? id = some key) (notRoot : id ≠ root) :
    (graph.withoutNodeAndEdges id key).Sound := by
  refine (sound.eraseEdges _).withoutNode (by simpa [key?] using carried) notRoot ?_
  intro edge held there
  have still : (graph.withoutNodeAndEdges id key).edgeKey? edge = some held := there
  exact (sound.edgeKey?_withoutNodeAndEdges.mp still).2

/-- With a node its relations go, and no other. -/
theorem Sound.related_withoutNodeAndEdges (sound : graph.Sound) {id source target : Nat}
    {key : EntityKey} {relation : Relation} :
    (graph.withoutNodeAndEdges id key).Related source relation target ↔
      graph.Related source relation target ∧ source ≠ id ∧ target ≠ id := by
  unfold Related
  simp only [sound.edgeKey?_withoutNodeAndEdges]
  constructor
  · rintro ⟨edge, there, apart⟩
    exact ⟨⟨edge, there⟩, apart⟩
  · rintro ⟨⟨edge, there⟩, apart⟩
    exact ⟨edge, there, apart⟩

end Erasing

end Graph

end DeclGraph
