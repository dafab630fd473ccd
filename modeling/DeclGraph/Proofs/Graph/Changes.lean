import DeclGraph.Proofs.Graph.Scans

/-!
# Histories of a graph

A graph begins with the global namespace alone and is changed by six kinds of
requests, each of which can fail. What a request does is classified once, by
`Changed`; every change of a sound graph leaves a sound graph behind, and a
number that has been given is never given to anything else. So along every
history the reads of a graph are scans, and a number means one entity or one
relation for ever.
-/

namespace DeclGraph

namespace Graph

/-- A request to change a graph. -/
inductive Change where
  | insert (key : EntityKey) (kind : EntityKind) (attributes : Attributes)
  | connect (source target : Nat) (relation : Relation) (attributes : Attributes)
  | removeNode (id : Nat)
  | removeEdge (id : Nat)
  | setKind (id : Nat) (kind : EntityKind)
  | setAttributes (id : Nat) (attributes : Attributes)

namespace Change

/-- The graph that a request leads to, or why it fails. -/
def perform (graph : Graph) : Change → Except GraphError Graph
  | insert key kind attributes => (·.1) <$> graph.insert key kind attributes
  | connect source target relation attributes =>
    (·.1) <$> graph.connect source target relation attributes
  | removeNode id => graph.removeNode id
  | removeEdge id => graph.removeEdge id
  | setKind id kind => graph.setKind id kind
  | setAttributes id attributes => graph.setAttributes id attributes

/-- The graph after a request; one that fails leaves the graph as it was. -/
def apply (graph : Graph) (change : Change) : Graph :=
  match change.perform graph with
  | .ok changed => changed
  | .error _ => graph

end Change

/-- The graph that a list of requests makes of the global namespace alone. -/
def afterChanges (changes : List Change) : Graph := changes.foldl Change.apply empty

/-- What a request that succeeds can do to a graph. -/
inductive Changed (graph : Graph) : Graph → Prop where
  | inserted {key : EntityKey} {kind : EntityKind} (attributes : Attributes)
      (fresh : graph.nodeByKey? key = none) (family : kind.family = key.family) :
      Changed graph (graph.addNode key kind attributes)
  | connected {key : EdgeKey} (attributes : Attributes)
      (sourceThere : (graph.key? key.source).isSome)
      (targetThere : (graph.key? key.target).isSome) :
      Changed graph (graph.withEdge key attributes)
  | nodeRemoved {id : Nat} {key : EntityKey} (carried : graph.key? id = some key)
      (notRoot : id ≠ root) : Changed graph (graph.withoutNodeAndEdges id key)
  | edgeRemoved (id : Nat) : Changed graph (graph.eraseEdge id)
  | replaced {id : Nat} {former node : Node} (found : graph.nodeTable[id]? = some former)
      (sameId : node.id = former.id) (sameKey : node.key = former.key)
      (family : node.kind.family = node.key.family) : Changed graph (graph.withNode id node)

/-- The numbers of one graph still mean in a later one what they meant, as far as
they mean anything there. -/
structure KeepsNumbers (before after : Graph) : Prop where
  nextNode_le : before.nextNode ≤ after.nextNode
  nextEdge_le : before.nextEdge ≤ after.nextEdge
  key? : ∀ {id : Nat} {key : EntityKey}, id < before.nextNode → after.key? id = some key →
    before.key? id = some key
  edgeKey? : ∀ {id : Nat} {key : EdgeKey}, id < before.nextEdge → after.edgeKey? id = some key →
    before.edgeKey? id = some key

namespace KeepsNumbers

/-- Without a change numbers keep their meaning. -/
theorem refl (graph : Graph) : KeepsNumbers graph graph :=
  ⟨Nat.le_refl _, Nat.le_refl _, fun _ carried => carried, fun _ carried => carried⟩

/-- Numbers that keep their meaning twice keep it. -/
theorem trans {first second third : Graph} (earlier : KeepsNumbers first second)
    (later : KeepsNumbers second third) : KeepsNumbers first third where
  nextNode_le := Nat.le_trans earlier.nextNode_le later.nextNode_le
  nextEdge_le := Nat.le_trans earlier.nextEdge_le later.nextEdge_le
  key? := fun below carried =>
    earlier.key? below (later.key? (Nat.lt_of_lt_of_le below earlier.nextNode_le) carried)
  edgeKey? := fun below carried =>
    earlier.edgeKey? below (later.edgeKey? (Nat.lt_of_lt_of_le below earlier.nextEdge_le) carried)

end KeepsNumbers

variable {graph changed : Graph}

/-- A change that fails leaves the graph as it is. -/
theorem Change.apply_of_error {change : Change} {error : GraphError}
    (failed : change.perform graph = .error error) : change.apply graph = graph := by
  rw [Change.apply, failed]

/-- A change that succeeds gives the changed graph. -/
theorem Change.apply_of_ok {change : Change} (done : change.perform graph = .ok changed) :
    change.apply graph = changed := by
  rw [Change.apply, done]

/-- A node that can be read is in the table. -/
theorem nodeTable_of_node {id : Nat} {node : Node} (found : graph.node id = .ok node) :
    graph.nodeTable[id]? = some node := by
  unfold Graph.node at found
  cases held : graph.nodeTable[id]? with
  | none => simp [held] at found
  | some other =>
    rw [held] at found
    cases found
    rfl

/-- A result is read from a success only. -/
theorem map_eq_ok {ε α β : Type} {read : α → β} {result : Except ε α} {value : β} :
    read <$> result = .ok value ↔ ∃ inner, result = .ok inner ∧ read inner = value := by
  cases result <;> simp

/-- Inserting succeeds under a new key with a kind of its family, and only so. -/
theorem insert_eq_ok {key : EntityKey} {kind : EntityKind} {attributes : Attributes}
    {grown : Graph × Nat} (done : graph.insert key kind attributes = .ok grown) :
    graph.nodeByKey? key = none ∧ kind.family = key.family ∧
      grown = (graph.addNode key kind attributes, graph.nextNode) := by
  unfold Graph.insert at done
  split at done
  · cases done
  · rename_i unused
    split at done
    · cases done
    · rename_i family
      have fresh : graph.keyIndex[key]? = none := by simpa using unused
      exact ⟨fresh, by simpa using family, (Except.ok.inj done).symm⟩

/-- Relating succeeds between two nodes, and only so. -/
theorem connect_eq_ok {source target : Nat} {relation : Relation} {attributes : Attributes}
    {grown : Graph × Nat} (done : graph.connect source target relation attributes = .ok grown) :
    (graph.key? source).isSome ∧ (graph.key? target).isSome ∧
      grown.1 = graph.withEdge ⟨source, target, relation⟩ attributes := by
  cases first : graph.node source with
  | error error => simp [connect, first, bind, Except.bind] at done
  | ok sourceNode =>
    cases second : graph.node target with
    | error error => simp [connect, first, second, bind, Except.bind] at done
    | ok targetNode =>
      have sourceThere := isSome_key?_iff.mpr ⟨sourceNode, nodeTable_of_node first⟩
      have targetThere := isSome_key?_iff.mpr ⟨targetNode, nodeTable_of_node second⟩
      obtain ⟨id, joined⟩ := connect_of_nodes relation attributes sourceThere targetThere
      rw [joined] at done
      cases done
      exact ⟨sourceThere, targetThere, rfl⟩

/-- Removing a node succeeds where one is, unless it is the global namespace. -/
theorem removeNode_eq_ok {id : Nat} (done : graph.removeNode id = .ok changed) :
    ∃ key, graph.key? id = some key ∧ id ≠ root ∧ changed = graph.withoutNodeAndEdges id key := by
  by_cases top : id = root
  · simp [removeNode, top] at done
  · cases first : graph.node id with
    | error error => simp [removeNode, top, first, bind, Except.bind] at done
    | ok node =>
      have found := nodeTable_of_node first
      rw [removeNode_of_node found top] at done
      exact ⟨node.key, key?_of_node found, top, (Except.ok.inj done).symm⟩

/-- An edge that can be removed is erased. -/
theorem removeEdge_eq_ok {id : Nat} (done : graph.removeEdge id = .ok changed) :
    changed = graph.eraseEdge id := by
  cases first : graph.edge id with
  | error error => simp [removeEdge, first, bind, Except.bind] at done
  | ok edge =>
    simp only [removeEdge, first, bind, Except.bind, pure, Except.pure] at done
    exact (Except.ok.inj done).symm

/-- Setting a kind succeeds within the family of the key, and only so. -/
theorem setKind_eq_ok {id : Nat} {kind : EntityKind} (done : graph.setKind id kind = .ok changed) :
    ∃ node, graph.nodeTable[id]? = some node ∧ node.key.family = kind.family ∧
      changed = graph.withNode id { node with kind } := by
  cases first : graph.node id with
  | error error => simp [setKind, first, bind, Except.bind] at done
  | ok node =>
    have found := nodeTable_of_node first
    by_cases family : node.key.family = kind.family
    · rw [setKind_of_node found family] at done
      exact ⟨node, found, family, (Except.ok.inj done).symm⟩
    · rw [setKind_of_other_family found family] at done
      cases done

/-- Where attributes can be set a node is there, and nothing but its attributes changes. -/
theorem setAttributes_eq_ok {id : Nat} {attributes : Attributes}
    (done : graph.setAttributes id attributes = .ok changed) :
    ∃ node, graph.nodeTable[id]? = some node ∧
      changed = graph.withNode id { node with attributes } := by
  cases first : graph.node id with
  | error error => simp [setAttributes, first, bind, Except.bind] at done
  | ok node =>
    have found := nodeTable_of_node first
    rw [setAttributes_of_node attributes found] at done
    exact ⟨node, found, (Except.ok.inj done).symm⟩

/-- A request that succeeds does one of the things that `Changed` lists. -/
theorem Sound.changed_of_perform (sound : graph.Sound) {change : Change}
    (done : change.perform graph = .ok changed) : Changed graph changed := by
  cases change with
  | insert key kind attributes =>
    obtain ⟨grown, inserted, rfl⟩ := map_eq_ok.mp done
    obtain ⟨fresh, family, rfl⟩ := insert_eq_ok inserted
    exact .inserted attributes fresh family
  | connect source target relation attributes =>
    obtain ⟨grown, joined, rfl⟩ := map_eq_ok.mp done
    obtain ⟨sourceThere, targetThere, same⟩ := connect_eq_ok joined
    rw [same]
    exact .connected attributes sourceThere targetThere
  | removeNode id =>
    obtain ⟨key, carried, notRoot, rfl⟩ := removeNode_eq_ok done
    exact .nodeRemoved carried notRoot
  | removeEdge id =>
    rw [removeEdge_eq_ok done]
    exact .edgeRemoved id
  | setKind id kind =>
    obtain ⟨node, found, family, rfl⟩ := setKind_eq_ok done
    exact .replaced found rfl rfl family.symm
  | setAttributes id attributes =>
    obtain ⟨node, found, rfl⟩ := setAttributes_eq_ok done
    have family : node.kind.family = node.key.family := sound.kind_family found
    exact .replaced found rfl rfl family

/-- A change leaves a sound graph. -/
theorem Changed.sound (step : Changed graph changed) (sound : graph.Sound) : changed.Sound := by
  cases step with
  | inserted attributes fresh family => exact sound.addNode attributes fresh family
  | connected attributes sourceThere targetThere => exact sound.withEdge sourceThere targetThere
  | nodeRemoved carried notRoot => exact sound.withoutNodeAndEdges carried notRoot
  | edgeRemoved id => exact sound.eraseEdge id
  | replaced found sameId sameKey family => exact sound.withNode found sameId sameKey family

/-- Erasing an edge gives no number back. -/
theorem nextEdge_eraseEdge (graph : Graph) (id : Nat) :
    (graph.eraseEdge id).nextEdge = graph.nextEdge := by
  unfold eraseEdge
  split <;> rfl

/-- Erasing edges gives no number of a node back. -/
theorem nextNode_eraseEdges (graph : Graph) (ids : List Nat) :
    (graph.eraseEdges ids).nextNode = graph.nextNode := by
  induction ids generalizing graph with
  | nil => rfl
  | cons id rest step => exact (step (graph.eraseEdge id)).trans (nextNode_eraseEdge graph id)

/-- Erasing edges gives no number of an edge back. -/
theorem nextEdge_eraseEdges (graph : Graph) (ids : List Nat) :
    (graph.eraseEdges ids).nextEdge = graph.nextEdge := by
  induction ids generalizing graph with
  | nil => rfl
  | cons id rest step => exact (step (graph.eraseEdge id)).trans (nextEdge_eraseEdge graph id)

/-- An edge that is added or joined changes the meaning of no number. -/
theorem keepsNumbers_withEdge (key : EdgeKey) (attributes : Attributes) :
    KeepsNumbers graph (graph.withEdge key attributes) := by
  have keys : ∀ id, (graph.withEdge key attributes).key? id = graph.key? id := key?_withEdge
  cases known : graph.edgeIndex[key]? with
  | some id =>
    rw [withEdge_of_known known] at keys ⊢
    exact ⟨Nat.le_refl _, Nat.le_refl _, fun _ carried => keys _ ▸ carried,
      fun _ carried => edgeKey?_absorbing id _ ▸ carried⟩
  | none =>
    rw [withEdge_of_fresh known] at keys ⊢
    refine ⟨Nat.le_refl _, Nat.le_succ _, fun _ carried => keys _ ▸ carried,
      fun below carried => ?_⟩
    rwa [edgeKey?_addEdge, if_neg (Nat.ne_of_gt below)] at carried

/-- A change changes the meaning of no number. -/
theorem Changed.keepsNumbers (step : Changed graph changed) (sound : graph.Sound) :
    KeepsNumbers graph changed := by
  cases step with
  | inserted attributes fresh family =>
    refine ⟨Nat.le_succ _, Nat.le_refl _, fun below carried => ?_, fun _ carried => carried⟩
    rwa [key?_addNode, if_neg (Nat.ne_of_gt below)] at carried
  | connected attributes sourceThere targetThere => exact keepsNumbers_withEdge _ attributes
  | @nodeRemoved id key carried notRoot =>
    have nodes : (graph.withoutNodeAndEdges id key).nextNode = graph.nextNode :=
      nextNode_eraseEdges graph _
    have edges : (graph.withoutNodeAndEdges id key).nextEdge = graph.nextEdge :=
      nextEdge_eraseEdges graph _
    refine ⟨Nat.le_of_eq nodes.symm, Nat.le_of_eq edges.symm, fun _ still => ?_,
      fun _ still => (sound.edgeKey?_withoutNodeAndEdges.mp still).1⟩
    rw [key?_withoutNodeAndEdges] at still
    grind
  | edgeRemoved id =>
    refine ⟨Nat.le_of_eq (nextNode_eraseEdge graph id).symm,
      Nat.le_of_eq (nextEdge_eraseEdge graph id).symm, fun _ still => ?_, fun _ still => ?_⟩
    · rwa [key?_eraseEdge] at still
    · rw [edgeKey?_eraseEdge] at still
      grind
  | replaced found sameId sameKey family =>
    exact ⟨Nat.le_refl _, Nat.le_refl _, fun _ carried => key?_withNode found sameKey _ ▸ carried,
      fun _ carried => carried⟩

/-- A request leaves a sound graph behind, in which the numbers mean what they
meant before. -/
theorem Sound.apply (sound : graph.Sound) (change : Change) :
    (change.apply graph).Sound ∧ KeepsNumbers graph (change.apply graph) := by
  cases done : change.perform graph with
  | error error =>
    rw [Change.apply_of_error done]
    exact ⟨sound, .refl graph⟩
  | ok changed =>
    have step := sound.changed_of_perform done
    rw [Change.apply_of_ok done]
    exact ⟨step.sound sound, step.keepsNumbers sound⟩

/-- Changes one after the other leave a sound graph in which numbers keep their meaning. -/
theorem Sound.applyAll (sound : graph.Sound) (changes : List Change) :
    (changes.foldl Change.apply graph).Sound ∧
      KeepsNumbers graph (changes.foldl Change.apply graph) := by
  induction changes generalizing graph with
  | nil => exact ⟨sound, .refl graph⟩
  | cons change rest further =>
    obtain ⟨first, firstNumbers⟩ := sound.apply change
    obtain ⟨last, restNumbers⟩ := further first
    exact ⟨last, firstNumbers.trans restNumbers⟩

/-- Every graph that changes lead to is sound. -/
theorem sound_afterChanges (changes : List Change) : (afterChanges changes).Sound :=
  (sound_empty.applyAll changes).1

/-- Further changes leave the meaning of numbers. -/
theorem keepsNumbers_afterChanges (earlier later : List Change) :
    KeepsNumbers (afterChanges earlier) (afterChanges (earlier ++ later)) := by
  rw [afterChanges, afterChanges, List.foldl_append]
  exact ((sound_afterChanges earlier).applyAll later).2

/-- Every read of a graph is the scan that it stands for. -/
structure ReadsAsScans (graph : Graph) : Prop where
  nodes_increasing : (graph.nodes.map (·.id)).Pairwise (· < ·)
  edges_increasing : (graph.edges.map (·.id)).Pairwise (· < ·)
  nodeByKey? : ∀ key, (graph.nodeByKey? key).toList =
    (graph.nodes.filter fun node => node.key = key).map (·.id)
  nodesNamed : ∀ name, graph.nodesNamed name =
    (graph.nodes.filter fun node => node.key.name = name).map (·.id)
  edgeBetween? : ∀ source target relation, (graph.edgeBetween? source target relation).toList =
    graph.edges.filter fun edge =>
      edge.source = source ∧ edge.target = target ∧ edge.relation = relation
  outgoing : ∀ node (relation : Option Relation), graph.outgoing node relation =
    graph.edges.filter fun edge => edge.source = node ∧ relation.all (edge.relation = ·)
  incoming : ∀ node (relation : Option Relation), graph.incoming node relation =
    graph.edges.filter fun edge => edge.target = node ∧ relation.all (edge.relation = ·)
  children : ∀ scope, graph.children scope =
    (graph.edges.filter fun edge => edge.source = scope ∧ edge.relation = .contains).map (·.target)
  parent? : ∀ node, graph.parent? node =
    (graph.edges.find? fun edge => edge.target = node ∧ edge.relation = .contains).map (·.source)
  neighbours : ∀ node relation direction, graph.neighbours node relation direction =
    if node ∈ graph.nodes.map (·.id) then
      .ok (distinct ((graph.edgesOf relation).filterMap (direction.otherEnd? node)))
    else .error (.nodeMissing node)

/-- The nodes and edges of a graph fit together. -/
structure WellFormed (graph : Graph) : Prop where
  edge_ends : ∀ edge ∈ graph.edges,
    edge.source ∈ graph.nodes.map (·.id) ∧ edge.target ∈ graph.nodes.map (·.id)
  kind_family : ∀ node ∈ graph.nodes, node.kind.family = node.key.family
  root_there : ∃ node ∈ graph.nodes, node.id = root ∧ node.key = .global

/-- In a history every number is given once. What a number means at two times it
means at every time between, and what is created gets a number that meant
nothing before. -/
structure NumbersOnce (changes : List Change) : Prop where
  node : ∀ earlier between later, changes = earlier ++ between ++ later → ∀ id first last,
    (afterChanges earlier).key? id = some first → (afterChanges changes).key? id = some last →
      first = last ∧ (afterChanges (earlier ++ between)).key? id = some last
  edge : ∀ earlier between later, changes = earlier ++ between ++ later → ∀ id first last,
    (afterChanges earlier).edgeKey? id = some first →
      (afterChanges changes).edgeKey? id = some last →
        first = last ∧ (afterChanges (earlier ++ between)).edgeKey? id = some last
  inserted : ∀ key kind attributes grown id,
    (afterChanges changes).insert key kind attributes = .ok (grown, id) →
      ∀ earlier, earlier <+: changes → (afterChanges earlier).key? id = none
  connected : ∀ source target relation attributes grown id,
    (afterChanges changes).connect source target relation attributes = .ok (grown, id) →
      (afterChanges changes).edgeKey? id = some ⟨source, target, relation⟩ ∨
        ∀ earlier, earlier <+: changes → (afterChanges earlier).edgeKey? id = none

/-- The ids of the listed nodes are those that are there. -/
theorem Sound.mem_ids (sound : graph.Sound) {id : Nat} :
    id ∈ graph.nodes.map (·.id) ↔ (graph.key? id).isSome := by
  have scan : id ∈ (graph.nodes.filter fun _ => true).map (·.id) ↔ _ :=
    sound.mem_filter_nodes fun _ => true
  rw [List.filter_true] at scan
  rw [scan, Option.isSome_iff_exists]
  simp

/-- In a sound graph every read through an index is a scan of all nodes or edges. -/
theorem Sound.readsAsScans (sound : graph.Sound) : graph.ReadsAsScans where
  nodes_increasing := sound.nodes_increasing
  edges_increasing := sound.edges_increasing
  nodeByKey? := sound.nodeByKey?_eq_scan
  nodesNamed := sound.nodesNamed_eq_scan
  edgeBetween? := sound.edgeBetween?_eq_scan
  outgoing := sound.outgoing_eq_scan
  incoming := sound.incoming_eq_scan
  children := sound.children_eq_scan
  parent? := sound.parent?_eq_scan
  neighbours := by
    intro node relation direction
    by_cases there : (graph.key? node).isSome
    · rw [if_pos (sound.mem_ids.mpr there)]
      exact sound.neighbours_eq_scan there relation direction
    · rw [if_neg (mt sound.mem_ids.mp there)]
      exact neighbours_of_missing (by simpa using there) relation direction

/-- A sound graph is well-formed. -/
theorem Sound.wellFormed (sound : graph.Sound) : graph.WellFormed where
  edge_ends := by
    intro edge listed
    have ends := sound.edge_ends (edgeKey?_of_edge (sound.mem_edges.mp listed))
    exact ⟨sound.mem_ids.mpr ends.1, sound.mem_ids.mpr ends.2⟩
  kind_family := fun node listed => sound.kind_family (sound.mem_nodes.mp listed)
  root_there := by
    obtain ⟨node, found, key⟩ := key?_eq_some.mp sound.root_key
    have own := sound.node_id found
    exact ⟨node, sound.mem_nodes.mpr (by rwa [own]), own, key⟩

/-- An edge that is asked for is there already or gets the next number. -/
theorem Sound.number_of_connect (sound : graph.Sound) {source target : Nat} {relation : Relation}
    {attributes : Attributes} {grown : Graph} {id : Nat}
    (done : graph.connect source target relation attributes = .ok (grown, id)) :
    graph.edgeKey? id = some ⟨source, target, relation⟩ ∨ id = graph.nextEdge := by
  unfold Graph.connect at done
  cases first : graph.node source with
  | error error => simp [first, bind, Except.bind] at done
  | ok sourceNode =>
    cases second : graph.node target with
    | error error => simp [first, second, bind, Except.bind] at done
    | ok targetNode =>
      simp only [first, second, bind, Except.bind] at done
      cases known : graph.edgeIndex[(⟨source, target, relation⟩ : EdgeKey)]? with
      | some held =>
        rw [known] at done
        cases done
        exact .inl (sound.edgeIndex_iff.mp known)
      | none =>
        rw [known] at done
        cases done
        exact .inr rfl

/-- Whatever changes are made, a number is given once and is not used again when what it stood for
is removed. -/
theorem numbersOnce (changes : List Change) : NumbersOnce changes where
  node := by
    rintro earlier between later rfl id first last early late
    have throughout := keepsNumbers_afterChanges earlier (between ++ later)
    rw [← List.append_assoc] at throughout
    have below := (sound_afterChanges earlier).lt_of_key? early
    have belowMiddle :=
      Nat.lt_of_lt_of_le below (keepsNumbers_afterChanges earlier between).nextNode_le
    have same := throughout.key? below late
    rw [early] at same
    exact ⟨Option.some.inj same,
      (keepsNumbers_afterChanges (earlier ++ between) later).key? belowMiddle late⟩
  edge := by
    rintro earlier between later rfl id first last early late
    have throughout := keepsNumbers_afterChanges earlier (between ++ later)
    rw [← List.append_assoc] at throughout
    have below := (sound_afterChanges earlier).lt_of_edgeKey? early
    have belowMiddle :=
      Nat.lt_of_lt_of_le below (keepsNumbers_afterChanges earlier between).nextEdge_le
    have same := throughout.edgeKey? below late
    rw [early] at same
    exact ⟨Option.some.inj same,
      (keepsNumbers_afterChanges (earlier ++ between) later).edgeKey? belowMiddle late⟩
  inserted := by
    rintro key kind attributes grown id done earlier ⟨later, rfl⟩
    obtain ⟨_, _, created⟩ := insert_eq_ok done
    obtain ⟨_, rfl⟩ := Prod.mk.inj created
    have grows := (keepsNumbers_afterChanges earlier later).nextNode_le
    refine Option.eq_none_iff_forall_ne_some.mpr fun held carried => ?_
    have below := (sound_afterChanges earlier).lt_of_key? carried
    omega
  connected := by
    intro source target relation attributes grown id done
    refine ((sound_afterChanges changes).number_of_connect done).imp_right ?_
    rintro next earlier ⟨later, rfl⟩
    have grows := (keepsNumbers_afterChanges earlier later).nextEdge_le
    refine Option.eq_none_iff_forall_ne_some.mpr fun held carried => ?_
    have below := (sound_afterChanges earlier).lt_of_edgeKey? carried
    omega

/-- Whatever was asked of a graph before, its reads are scans, its nodes and edges
fit together, and no number has been given twice. -/
theorem indexes_exact_after (changes : List Change) :
    (afterChanges changes).ReadsAsScans ∧ (afterChanges changes).WellFormed ∧
      NumbersOnce changes :=
  ⟨(sound_afterChanges changes).readsAsScans, (sound_afterChanges changes).wellFormed,
    numbersOnce changes⟩

end Graph

end DeclGraph
