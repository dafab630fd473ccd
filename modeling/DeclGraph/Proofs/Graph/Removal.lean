import DeclGraph.Proofs.Graph.Changes

/-!
# Removing a node

A node is removed in stages: the edges at it are taken out one after the other, then the node
itself. No stage fails, since each edge at the node is met once, be it a loop or one of several
between the same nodes. What is left are the other nodes and the edges between them, under the
numbers that they had, and the key of the node is free: whatever is inserted under it gets a number
above all that were ever given.
-/

namespace DeclGraph

namespace Graph

section Order

variable {α : Type} [Ord α] [Std.TransOrd α] [Std.LawfulEqOrd α] [DecidableEq α]

/-- What an index holds under a key after a number was taken out: the list that is left, unless
it is empty. -/
theorem getElem?_removeAt (index : Std.ExtTreeMap α (List Nat)) (key other : α) (id : Nat) :
    (removeAt index key id)[other]? =
      if key = other then
        if (listAt index key).filter (· ≠ id) = [] then none
        else some ((listAt index key).filter (· ≠ id))
      else index[other]? := by
  unfold removeAt
  by_cases nothing : (listAt index key).filter (· ≠ id) = []
  · simp only [nothing, List.isEmpty_nil, if_true, Std.ExtTreeMap.getElem?_erase,
      Std.LawfulEqOrd.compare_eq_iff_eq]
  · have more : ((listAt index key).filter (· ≠ id)).isEmpty = false := by
      rwa [List.isEmpty_eq_false_iff]
    simp only [more, nothing, Bool.false_eq_true, if_false, Std.ExtTreeMap.getElem?_insert,
      Std.LawfulEqOrd.compare_eq_iff_eq]

/-- Numbers can be taken out of an index in any order. -/
theorem removeAt_comm (index : Std.ExtTreeMap α (List Nat)) (first second : α) (one other : Nat) :
    removeAt (removeAt index first one) second other =
      removeAt (removeAt index second other) first one := by
  refine Std.ExtTreeMap.ext_getElem? fun key => ?_
  by_cases same : first = second
  · subst same
    simp only [getElem?_removeAt, listAt_removeAt_self, List.filter_filter, Bool.and_comm]
    split <;> rfl
  · have apart := Ne.symm same
    simp only [getElem?_removeAt, listAt_removeAt_of_ne _ _ same, listAt_removeAt_of_ne _ _ apart]
    by_cases atFirst : first = key
    · subst atFirst
      simp [apart]
    · simp [atFirst]

end Order

section Stages

variable {graph : Graph}

/-- Erasing an edge that is not there changes nothing. -/
theorem eraseEdge_of_missing {id : Nat} (missing : graph.edgeTable[id]? = none) :
    graph.eraseEdge id = graph := by
  simp [eraseEdge, missing]

/-- Erasing an edge takes it from the table, from the index and from the lists of its ends. -/
theorem eraseEdge_of_edge {id : Nat} {edge : Edge} (found : graph.edgeTable[id]? = some edge) :
    graph.eraseEdge id =
      { graph with
        edgeTable := graph.edgeTable.erase id
        edgeIndex := graph.edgeIndex.erase edge.key
        leaving := removeAt graph.leaving edge.source id
        entering := removeAt graph.entering edge.target id } := by
  simp [eraseEdge, found]

/-- It does not matter which of two entries is erased first. -/
theorem erase_comm {α β : Type} [Ord α] [Std.TransOrd α] [Std.LawfulEqOrd α]
    (table : Std.ExtTreeMap α β) (one other : α) :
    (table.erase one).erase other = (table.erase other).erase one := by
  refine Std.ExtTreeMap.ext_getElem? fun key => ?_
  simp only [Std.ExtTreeMap.getElem?_erase]
  split <;> split <;> rfl

/-- Edges can be taken out in any order. -/
theorem eraseEdge_comm (graph : Graph) (one other : Nat) :
    (graph.eraseEdge one).eraseEdge other = (graph.eraseEdge other).eraseEdge one := by
  by_cases same : one = other
  · rw [same]
  cases oneFound : graph.edgeTable[one]? with
  | none =>
    have still : (graph.eraseEdge other).edgeTable[one]? = none := by
      simp [edgeTable_eraseEdge, oneFound]
    rw [eraseEdge_of_missing oneFound, eraseEdge_of_missing still]
  | some oneEdge =>
    cases otherFound : graph.edgeTable[other]? with
    | none =>
      have still : (graph.eraseEdge one).edgeTable[other]? = none := by
        simp [edgeTable_eraseEdge, otherFound]
      rw [eraseEdge_of_missing otherFound, eraseEdge_of_missing still]
    | some otherEdge =>
      have oneStill : (graph.eraseEdge other).edgeTable[one]? = some oneEdge := by
        simp [edgeTable_eraseEdge, oneFound, Ne.symm same]
      have otherStill : (graph.eraseEdge one).edgeTable[other]? = some otherEdge := by
        simp [edgeTable_eraseEdge, otherFound, same]
      rw [eraseEdge_of_edge oneStill, eraseEdge_of_edge otherStill, eraseEdge_of_edge oneFound,
        eraseEdge_of_edge otherFound, erase_comm, erase_comm _ oneEdge.key,
        removeAt_comm _ oneEdge.source, removeAt_comm _ oneEdge.target]

instance : RightCommutative eraseEdge := ⟨eraseEdge_comm⟩

/-- An edge that is named twice is erased once. -/
theorem eraseEdges_addNew (graph : Graph) (ids : List Nat) (id : Nat) :
    graph.eraseEdges (addNew ids id) = (graph.eraseEdges ids).eraseEdge id := by
  unfold addNew
  by_cases again : id ∈ ids
  · have gone : (graph.eraseEdges ids).edgeTable[id]? = none := by
      rw [edgeTable_eraseEdges, if_pos again]
    rw [if_pos (by simpa using again), eraseEdge_of_missing gone]
  · rw [if_neg (by simpa using again)]
    simp [eraseEdges]

/-- An edge that is listed again is gone already. -/
theorem eraseEdges_distinct (graph : Graph) (ids : List Nat) :
    graph.eraseEdges (distinct ids) = graph.eraseEdges ids := by
  have behind : ∀ gone : List Nat, graph.eraseEdges (ids.foldl addNew gone) =
      (graph.eraseEdges gone).eraseEdges ids := by
    induction ids with
    | nil => exact fun _ => rfl
    | cons id rest further =>
      intro gone
      rw [List.foldl_cons, further, eraseEdges_addNew]
      rfl
  exact behind []

/-- Removing edges that are there, each once, succeeds. -/
theorem foldlM_removeEdge {ids : List Nat} (nodup : ids.Nodup)
    (there : ∀ id ∈ ids, (graph.edgeKey? id).isSome) :
    ids.foldlM removeEdge graph = .ok (graph.eraseEdges ids) := by
  induction ids generalizing graph with
  | nil => rfl
  | cons id rest further =>
    rw [List.nodup_cons] at nodup
    rw [List.forall_mem_cons] at there
    obtain ⟨key, carried⟩ := Option.isSome_iff_exists.mp there.1
    obtain ⟨edge, found, -⟩ := edgeKey?_eq_some.mp carried
    have removed : graph.removeEdge id = .ok (graph.eraseEdge id) := by
      simp [removeEdge, Graph.edge, found, bind, Except.bind, pure, Except.pure]
    have restThere : ∀ other ∈ rest, ((graph.eraseEdge id).edgeKey? other).isSome := by
      intro other listed
      have apart : id ≠ other := fun same => nodup.1 (same ▸ listed)
      rw [edgeKey?_eraseEdge, if_neg apart]
      exact there.2 other listed
    rw [List.foldlM_cons, removed]
    exact further nodup.2 restThere

/-- The numbers of the edges at a node in their order; a loop is listed once. -/
def incidentEdges (graph : Graph) (id : Nat) : List Nat :=
  (graph.edges.filter fun edge => edge.source = id ∨ edge.target = id).map (·.id)

namespace Sound

/-- An edge is listed at the nodes where it starts and ends. -/
theorem mem_edgesAt_of_edge (sound : graph.Sound) {id number : Nat} {edge : Edge}
    (found : graph.edgeTable[number]? = some edge) :
    number ∈ graph.edgesAt id ↔ edge.source = id ∨ edge.target = id := by
  simp [sound.mem_edgesAt, edgeKey?_of_edge found, Edge.key]

/-- The incident edges are those at the node. -/
theorem mem_incidentEdges (sound : graph.Sound) {id number : Nat} :
    number ∈ graph.incidentEdges id ↔ number ∈ graph.edgesAt id := by
  simp only [incidentEdges, List.mem_map, List.mem_filter, decide_eq_true_eq, sound.mem_edges]
  constructor
  · rintro ⟨edge, ⟨found, incident⟩, rfl⟩
    exact (sound.mem_edgesAt_of_edge found).mpr incident
  · intro listed
    obtain ⟨held, carried, -⟩ := sound.mem_edgesAt.mp listed
    obtain ⟨edge, found, -⟩ := edgeKey?_eq_some.mp carried
    have own := sound.edge_id found
    exact ⟨edge, ⟨by rwa [own], (sound.mem_edgesAt_of_edge found).mp listed⟩, own⟩

/-- No incident edge is listed twice. -/
theorem nodup_incidentEdges (sound : graph.Sound) (id : Nat) : (graph.incidentEdges id).Nodup :=
  (increasing_filter sound.edges_increasing _).imp Nat.ne_of_lt

/-- The edges at a node can be taken out in their order, each once. -/
theorem eraseEdges_incidentEdges (sound : graph.Sound) (id : Nat) :
    graph.eraseEdges (graph.incidentEdges id) = graph.eraseEdges (graph.edgesAt id) := by
  have perm : (graph.incidentEdges id).Perm (distinct (graph.edgesAt id)) :=
    (List.perm_ext_iff_of_nodup (sound.nodup_incidentEdges id) (nodup_distinct _)).mpr
      fun edge => sound.mem_incidentEdges.trans mem_distinct.symm
  rw [← eraseEdges_distinct graph (graph.edgesAt id)]
  exact perm.foldl_eq graph

/-- Every stage of the removal of a node succeeds. -/
theorem removeNode_staged (sound : graph.Sound) {id : Nat} {node : Node}
    (found : graph.nodeTable[id]? = some node) (notRoot : id ≠ root) :
    ∃ bare, (graph.incidentEdges id).foldlM removeEdge graph = .ok bare ∧
      graph.removeNode id = .ok (bare.withoutNode id node.key) := by
  have there : ∀ edge ∈ graph.incidentEdges id, (graph.edgeKey? edge).isSome := by
    intro edge listed
    obtain ⟨held, carried, -⟩ := sound.mem_edgesAt.mp (sound.mem_incidentEdges.mp listed)
    exact Option.isSome_iff_exists.mpr ⟨held, carried⟩
  refine ⟨_, foldlM_removeEdge (sound.nodup_incidentEdges id) there, ?_⟩
  rw [removeNode_of_node found notRoot, Graph.withoutNodeAndEdges, sound.eraseEdges_incidentEdges]

end Sound

end Stages

/-- The root cannot be removed. -/
theorem removeNode_root (graph : Graph) : graph.removeNode root = .error .rootRemoval := by
  simp [removeNode]

/-- What is not there cannot be removed. -/
theorem removeNode_of_missing {graph : Graph} {id : Nat} (missing : graph.key? id = none)
    (notRoot : id ≠ root) : graph.removeNode id = .error (.nodeMissing id) := by
  have absent : graph.nodeTable[id]? = none := by simpa [key?] using missing
  simp [removeNode, notRoot, Graph.node, absent, bind, Except.bind]

/-- Erasing an edge leaves the index of keys. -/
@[simp] theorem keyIndex_eraseEdge (graph : Graph) (id : Nat) :
    (graph.eraseEdge id).keyIndex = graph.keyIndex := by
  unfold eraseEdge
  split <;> rfl

/-- Erasing edges leaves the index of keys. -/
@[simp] theorem keyIndex_eraseEdges (graph : Graph) (ids : List Nat) :
    (graph.eraseEdges ids).keyIndex = graph.keyIndex := by
  induction ids generalizing graph with
  | nil => rfl
  | cons id rest step => exact (step (graph.eraseEdge id)).trans (by simp)

/-- The key of a removed node is free. -/
theorem nodeByKey?_withoutNodeAndEdges (graph : Graph) (id : Nat) (key other : EntityKey) :
    (graph.withoutNodeAndEdges id key).nodeByKey? other =
      if key = other then none else graph.nodeByKey? other := by
  simp [nodeByKey?, withoutNodeAndEdges, withoutNode, Std.ExtTreeMap.getElem?_erase]

/-- Whether a request asks for a node under a key. -/
def Change.InsertsUnder (key : EntityKey) : Change → Prop
  | insert inserted _ _ => inserted = key
  | _ => False

/-- One graph is another without one of its nodes and the edges at it, and reads as it should. -/
structure LacksNode (graph after : Graph) (id : Nat) : Prop where
  nodes : after.nodes = graph.nodes.filter (·.id ≠ id)
  edges : after.edges = graph.edges.filter fun edge => edge.source ≠ id ∧ edge.target ≠ id
  reads : after.ReadsAsScans
  nextNode : after.nextNode = graph.nextNode
  nextEdge : after.nextEdge = graph.nextEdge

section Lacking

variable {graph : Graph} {id : Nat}

/-- A graph without a node and its edges lacks the node, and everything else is as before. -/
theorem Sound.lacksNode (sound : graph.Sound) {key : EntityKey}
    (carried : graph.key? id = some key) (notRoot : id ≠ root) :
    LacksNode graph (graph.withoutNodeAndEdges id key) id := by
  have after := sound.withoutNodeAndEdges carried notRoot
  have edgeTable : ∀ edge : Nat, (graph.withoutNodeAndEdges id key).edgeTable[edge]? =
      if edge ∈ graph.edgesAt id then none else graph.edgeTable[edge]? :=
    edgeTable_eraseEdges graph _
  constructor
  case nodes =>
    refine eq_of_increasing (·.id) after.nodes_increasing
      (increasing_filter sound.nodes_increasing _) fun node => ?_
    rw [after.mem_nodes, nodeTable_withoutNodeAndEdges, List.mem_filter, sound.mem_nodes]
    by_cases same : node.id = id
    · simp [same]
    · simp [same, Ne.symm same]
  case edges =>
    refine eq_of_increasing (·.id) after.edges_increasing
      (increasing_filter sound.edges_increasing _) fun edge => ?_
    rw [after.mem_edges, edgeTable, List.mem_filter, sound.mem_edges]
    by_cases found : graph.edgeTable[edge.id]? = some edge
    · simp [found, sound.mem_edgesAt_of_edge found]
    · by_cases gone : edge.id ∈ graph.edgesAt id <;> simp [found, gone]
  case reads => exact after.readsAsScans
  case nextNode => exact nextNode_eraseEdges graph _
  case nextEdge => exact nextEdge_eraseEdges graph _

end Lacking

section Freed

variable {graph changed : Graph} {key : EntityKey}

/-- A key that leads nowhere is only used again by an insertion under it. -/
theorem nodeByKey?_perform {change : Change}
    (done : change.perform graph = .ok changed) (free : graph.nodeByKey? key = none)
    (other : ¬ change.InsertsUnder key) : changed.nodeByKey? key = none := by
  have index : graph.keyIndex[key]? = none := free
  cases change with
  | insert inserted kind attributes =>
    obtain ⟨grown, made, rfl⟩ := map_eq_ok.mp done
    obtain ⟨-, -, rfl⟩ := insert_eq_ok made
    have apart : inserted ≠ key := other
    show (graph.keyIndex.insert inserted graph.nextNode)[key]? = none
    simp [Std.ExtTreeMap.getElem?_insert, apart, index]
  | connect source target relation attributes =>
    obtain ⟨grown, joined, rfl⟩ := map_eq_ok.mp done
    obtain ⟨-, -, same⟩ := connect_eq_ok joined
    rw [same, nodeByKey?, keyIndex_withEdge, index]
  | removeNode id =>
    obtain ⟨gone, -, -, rfl⟩ := removeNode_eq_ok done
    rw [nodeByKey?_withoutNodeAndEdges, free, ite_self]
  | removeEdge id =>
    rw [removeEdge_eq_ok done, nodeByKey?, keyIndex_eraseEdge, index]
  | setKind id kind =>
    obtain ⟨node, -, -, rfl⟩ := setKind_eq_ok done
    exact free
  | setAttributes id attributes =>
    obtain ⟨node, -, rfl⟩ := setAttributes_eq_ok done
    exact free

/-- As long as nothing is inserted under a key that leads nowhere, it leads nowhere. -/
theorem nodeByKey?_applyAll {changes : List Change} (free : graph.nodeByKey? key = none)
    (other : ∀ change ∈ changes, ¬ change.InsertsUnder key) :
    (changes.foldl Change.apply graph).nodeByKey? key = none := by
  induction changes generalizing graph with
  | nil => exact free
  | cons change rest further =>
    rw [List.forall_mem_cons] at other
    refine further ?_ other.2
    cases done : change.perform graph with
    | error error => rwa [Change.apply_of_error done]
    | ok changed =>
      rw [Change.apply_of_ok done]
      exact nodeByKey?_perform done free other.1

/-- What a history gave numbers to lies below the next number. -/
theorem lt_nextNode_of_history {past history : List Change} (before : past <+: history)
    {node : Node} (there : node ∈ (afterChanges past).nodes) :
    node.id < (afterChanges history).nextNode := by
  obtain ⟨rest, rfl⟩ := before
  exact Nat.lt_of_lt_of_le
    ((sound_afterChanges past).node_lt ((sound_afterChanges past).mem_nodes.mp there))
    (keepsNumbers_afterChanges past rest).nextNode_le

end Freed

/-- Whatever was asked of a graph before, the global namespace and what is not there cannot be
removed, and the graph stays as it is. Every other node is removed, in stages none of which fails,
with the edges at it and nothing else; and as long as nothing is inserted under its key, an
insertion under the key succeeds and gives a number above all that were given before. -/
theorem removeNode_exact (changes : List Change) (id : Nat) :
    (id = root → (afterChanges changes).removeNode id = .error .rootRemoval ∧
      (Change.removeNode id).apply (afterChanges changes) = afterChanges changes) ∧
    (id ∉ (afterChanges changes).nodes.map (·.id) →
      (afterChanges changes).removeNode id = .error (.nodeMissing id) ∧
        (Change.removeNode id).apply (afterChanges changes) = afterChanges changes) ∧
    ∀ node ∈ (afterChanges changes).nodes, node.id = id → id ≠ root →
      ∃ after, (afterChanges changes).removeNode id = .ok after ∧
        LacksNode (afterChanges changes) after id ∧
        (∃ bare, ((afterChanges changes).incidentEdges id).foldlM removeEdge
            (afterChanges changes) = .ok bare ∧ after = bare.withoutNode id node.key) ∧
        ∀ later, (∀ change ∈ later, ¬ change.InsertsUnder node.key) →
          ∀ kind attributes, kind.family = node.key.family →
            ∃ grown fresh, (afterChanges (changes ++ .removeNode id :: later)).insert node.key kind
                attributes = .ok (grown, fresh) ∧
              ∀ past, past <+: changes ++ .removeNode id :: later →
                ∀ other ∈ (afterChanges past).nodes, other.id < fresh := by
  have sound := sound_afterChanges changes
  refine ⟨?_, fun missing => ?_, fun node listed isNode notRoot => ?_⟩
  · rintro rfl
    have failed := removeNode_root (afterChanges changes)
    exact ⟨failed, Change.apply_of_error failed⟩
  · have absent : (afterChanges changes).key? id = none := by
      simpa using mt sound.mem_ids.mpr missing
    have notRoot : id ≠ root := by
      rintro rfl
      rw [sound.root_key] at absent
      cases absent
    have failed := removeNode_of_missing absent notRoot
    exact ⟨failed, Change.apply_of_error failed⟩
  · have found : (afterChanges changes).nodeTable[id]? = some node :=
      isNode ▸ sound.mem_nodes.mp listed
    have carried := key?_of_node found
    have removed := removeNode_of_node found notRoot
    obtain ⟨bare, stages, same⟩ := sound.removeNode_staged found notRoot
    refine ⟨_, removed, sound.lacksNode carried notRoot,
      ⟨bare, stages, Except.ok.inj (removed.symm.trans same)⟩, ?_⟩
    intro later untouched kind attributes family
    have history : afterChanges (changes ++ .removeNode id :: later) =
        later.foldl Change.apply ((afterChanges changes).withoutNodeAndEdges id node.key) := by
      have first : (Change.removeNode id).apply (afterChanges changes) = _ :=
        Change.apply_of_ok removed
      rw [afterChanges, List.foldl_append, List.foldl_cons, ← afterChanges, first]
    have freed : ((afterChanges changes).withoutNodeAndEdges id node.key).nodeByKey? node.key =
        none := by rw [nodeByKey?_withoutNodeAndEdges, if_pos rfl]
    have free := nodeByKey?_applyAll freed untouched
    rw [← history] at free
    exact ⟨_, _, insert_of_fresh attributes free family,
      fun past before other there => lt_nextNode_of_history before there⟩

end Graph

end DeclGraph
