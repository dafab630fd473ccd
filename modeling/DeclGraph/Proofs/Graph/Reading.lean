import DeclGraph.Graph.Shape
import DeclGraph.Proofs.Graph.Edges

/-!
# What reads of a sound graph say

The lists that a sound graph gives for its nodes, its edges and the surroundings
of a node hold exactly what the tables hold.
-/

namespace DeclGraph

namespace Graph

/-- Different nodes of a graph are not more than it counts. -/
theorem length_le_nodeCount {graph : Graph} {ids : List Nat} (nodup : ids.Nodup)
    (there : ∀ id ∈ ids, (graph.key? id).isSome) : ids.length ≤ graph.nodeCount := by
  have inKeys : ids ⊆ graph.nodeTable.keys := by
    intro id member
    obtain ⟨node, found⟩ := isSome_key?_iff.mp (there id member)
    rw [Std.ExtTreeMap.mem_keys, Std.ExtTreeMap.mem_iff_isSome_getElem?, found]
    rfl
  have count := nodup.length_le_of_subset inKeys
  rwa [Std.ExtTreeMap.length_keys] at count

namespace Sound

variable {graph : Graph}

/-- The listed nodes are those of the table. -/
theorem mem_nodes (sound : graph.Sound) {node : Node} :
    node ∈ graph.nodes ↔ graph.nodeTable[node.id]? = some node := by
  rw [Graph.nodes, mem_values]
  constructor
  · rintro ⟨id, found⟩
    rwa [sound.node_id found]
  · exact fun found => ⟨node.id, found⟩

/-- Nodes are listed in the order of their numbers. -/
theorem nodes_increasing (sound : graph.Sound) : (graph.nodes.map (·.id)).Pairwise (· < ·) := by
  have ids : graph.nodes.map (·.id) = graph.nodeTable.keys := map_values_eq_keys sound.node_id
  rw [ids]
  exact graph.nodeTable.ordered_keys.imp Nat.compare_eq_lt.mp

/-- Every node is listed once. -/
theorem nodes_nodup (sound : graph.Sound) : (graph.nodes.map (·.id)).Nodup :=
  sound.nodes_increasing.imp Nat.ne_of_lt

/-- Edges are listed in the order of their numbers. -/
theorem edges_increasing (sound : graph.Sound) : (graph.edges.map (·.id)).Pairwise (· < ·) := by
  have ids : graph.edges.map (·.id) = graph.edgeTable.keys := map_values_eq_keys sound.edge_id
  rw [ids]
  exact graph.edgeTable.ordered_keys.imp Nat.compare_eq_lt.mp

/-- The listed edges are those of the table. -/
theorem mem_edges (sound : graph.Sound) {edge : Edge} :
    edge ∈ graph.edges ↔ graph.edgeTable[edge.id]? = some edge := by
  rw [Graph.edges, mem_values]
  constructor
  · rintro ⟨id, found⟩
    rwa [sound.edge_id found]
  · exact fun found => ⟨edge.id, found⟩

/-- The edges that leave a node are those of the table that start there, of the relation if one is
given. -/
theorem mem_outgoing (sound : graph.Sound) {node : Nat} {relation : Option Relation}
    {edge : Edge} :
    edge ∈ graph.outgoing node relation ↔
      graph.edgeTable[edge.id]? = some edge ∧ edge.source = node ∧
        relation.all (edge.relation = ·) := by
  simp only [outgoing, edgesAmong, List.mem_filter, List.mem_filterMap, sound.mem_leaving]
  constructor
  · rintro ⟨⟨id, leaves, found⟩, accepted⟩
    rw [edgeKey?_of_edge found] at leaves
    rw [sound.edge_id found]
    exact ⟨found, by simpa [Edge.key] using leaves, accepted⟩
  · rintro ⟨found, source, accepted⟩
    exact ⟨⟨edge.id, by simp [edgeKey?_of_edge found, source, Edge.key], found⟩, accepted⟩

/-- The edges that reach a node are those of the table that end there, of the relation if one is
given. -/
theorem mem_incoming (sound : graph.Sound) {node : Nat} {relation : Option Relation}
    {edge : Edge} :
    edge ∈ graph.incoming node relation ↔
      graph.edgeTable[edge.id]? = some edge ∧ edge.target = node ∧
        relation.all (edge.relation = ·) := by
  simp only [incoming, edgesAmong, List.mem_filter, List.mem_filterMap, sound.mem_entering]
  constructor
  · rintro ⟨⟨id, enters, found⟩, accepted⟩
    rw [edgeKey?_of_edge found] at enters
    rw [sound.edge_id found]
    exact ⟨found, by simpa [Edge.key] using enters, accepted⟩
  · rintro ⟨found, target, accepted⟩
    exact ⟨⟨edge.id, by simp [edgeKey?_of_edge found, target, Edge.key], found⟩, accepted⟩

/-- Nodes are related when an edge of the table relates them. -/
theorem related_iff (sound : graph.Sound) {source target : Nat} {relation : Relation} :
    graph.Related source relation target ↔
      ∃ edge : Edge, graph.edgeTable[edge.id]? = some edge ∧
        edge.key = ⟨source, target, relation⟩ := by
  unfold Related
  simp only [edgeKey?_eq_some]
  constructor
  · rintro ⟨id, edge, found, same⟩
    exact ⟨edge, by rwa [sound.edge_id found], same⟩
  · rintro ⟨edge, found, same⟩
    exact ⟨edge.id, edge, found, same⟩

/-- The targets of a node are what it is related to. -/
theorem mem_targets (sound : graph.Sound) {source target : Nat} {relation : Relation} :
    target ∈ (graph.outgoing source (some relation)).map (·.target) ↔
      graph.Related source relation target := by
  rw [List.mem_map, sound.related_iff]
  constructor
  · rintro ⟨edge, leaves, rfl⟩
    obtain ⟨found, rfl, accepted⟩ := sound.mem_outgoing.mp leaves
    exact ⟨edge, found, by simpa [Edge.key] using accepted⟩
  · rintro ⟨edge, found, same⟩
    cases edge
    simp only [Edge.key, EdgeKey.mk.injEq] at same
    obtain ⟨rfl, rfl, rfl⟩ := same
    exact ⟨_, sound.mem_outgoing.mpr ⟨found, rfl, by simp⟩, rfl⟩

/-- The sources of a node are what is related to it. -/
theorem mem_sources (sound : graph.Sound) {source target : Nat} {relation : Relation} :
    source ∈ (graph.incoming target (some relation)).map (·.source) ↔
      graph.Related source relation target := by
  rw [List.mem_map, sound.related_iff]
  constructor
  · rintro ⟨edge, enters, rfl⟩
    obtain ⟨found, rfl, accepted⟩ := sound.mem_incoming.mp enters
    exact ⟨edge, found, by simpa [Edge.key] using accepted⟩
  · rintro ⟨edge, found, same⟩
    cases edge
    simp only [Edge.key, EdgeKey.mk.injEq] at same
    obtain ⟨rfl, rfl, rfl⟩ := same
    exact ⟨_, sound.mem_incoming.mpr ⟨found, rfl, by simp⟩, rfl⟩

/-- The children of a scope are what it contains. -/
theorem mem_children (sound : graph.Sound) {scope member : Nat} :
    member ∈ graph.children scope ↔ graph.Related scope .contains member :=
  sound.mem_targets

/-- Related nodes are there. -/
theorem there_of_related (sound : graph.Sound) {source target : Nat} {relation : Relation}
    (related : graph.Related source relation target) :
    (graph.key? source).isSome ∧ (graph.key? target).isSome := by
  obtain ⟨id, at_⟩ := related
  exact sound.edge_ends at_

/-- The scope that is found for a node contains it. -/
theorem related_of_parent? (sound : graph.Sound) {scope member : Nat}
    (found : graph.parent? member = some scope) : graph.Related scope .contains member := by
  refine sound.mem_sources.mp (List.mem_of_mem_head? ?_)
  simpa [parent?] using found

/-- Edges behind increasing numbers are listed in the order of their creation. -/
theorem edgesAmong_increasing (sound : graph.Sound) {ids : List Nat}
    (increasing : ids.Pairwise (· < ·)) (relation : Option Relation) :
    ((graph.edgesAmong ids relation).map (·.id)).Pairwise (· < ·) := by
  have found : ((ids.filterMap (graph.edgeTable[·]?)).map (·.id)).Sublist ids := by
    clear increasing
    induction ids with
    | nil => exact List.Sublist.refl _
    | cons id rest step =>
      cases found : graph.edgeTable[id]? with
      | none => simpa [found] using step.cons id
      | some edge => simpa [found, sound.edge_id found] using step.cons_cons id
  exact increasing.sublist ((List.filter_sublist.map _).trans found)

/-- Of several edges of one relation that leave a node, no two have one
target. -/
theorem targets_nodup (sound : graph.Sound) (source : Nat) (relation : Relation) :
    ((graph.outgoing source (some relation)).map (·.target)).Nodup := by
  have increasing := sound.edgesAmong_increasing (sound.leaving_increasing source) (some relation)
  rw [List.pairwise_map] at increasing
  rw [List.Nodup, List.pairwise_map]
  refine increasing.imp_of_mem fun {first second} firstLeaves secondLeaves below same => ?_
  obtain ⟨foundFirst, rfl, firstAccepted⟩ := sound.mem_outgoing.mp firstLeaves
  obtain ⟨foundSecond, sameSource, secondAccepted⟩ := sound.mem_outgoing.mp secondLeaves
  have sameKey : second.key = first.key := by
    simp only [Option.all_some, decide_eq_true_eq] at firstAccepted secondAccepted
    simp [Edge.key, same, sameSource, firstAccepted, secondAccepted]
  have sameId := sound.id_eq_of_edgeKey? (edgeKey?_of_edge foundFirst)
    (sameKey ▸ edgeKey?_of_edge foundSecond)
  exact absurd sameId (Nat.ne_of_lt below)

/-- Of several edges of one relation that enter a node, no two have one
source. -/
theorem sources_nodup (sound : graph.Sound) (target : Nat) (relation : Relation) :
    ((graph.incoming target (some relation)).map (·.source)).Nodup := by
  have increasing := sound.edgesAmong_increasing (sound.entering_increasing target) (some relation)
  rw [List.pairwise_map] at increasing
  rw [List.Nodup, List.pairwise_map]
  refine increasing.imp_of_mem fun {first second} firstEnters secondEnters below same => ?_
  obtain ⟨foundFirst, rfl, firstAccepted⟩ := sound.mem_incoming.mp firstEnters
  obtain ⟨foundSecond, sameTarget, secondAccepted⟩ := sound.mem_incoming.mp secondEnters
  have sameKey : second.key = first.key := by
    simp only [Option.all_some, decide_eq_true_eq] at firstAccepted secondAccepted
    simp [Edge.key, same, sameTarget, firstAccepted, secondAccepted]
  have sameId := sound.id_eq_of_edgeKey? (edgeKey?_of_edge foundFirst)
    (sameKey ▸ edgeKey?_of_edge foundSecond)
  exact absurd sameId (Nat.ne_of_lt below)

/-- No child is listed twice. -/
theorem children_nodup (sound : graph.Sound) (scope : Nat) : (graph.children scope).Nodup :=
  sound.targets_nodup scope .contains

/-- Where only one scope can hold a node, the scope found is the one that
does. -/
theorem parent?_eq_some (sound : graph.Sound) {scope member : Nat}
    (single : ∀ first second, graph.Related first .contains member →
      graph.Related second .contains member → first = second) :
    graph.parent? member = some scope ↔ graph.Related scope .contains member := by
  refine ⟨sound.related_of_parent?, fun related => ?_⟩
  have listed := sound.mem_sources.mpr related
  cases found : graph.parent? member with
  | some other => rw [single _ _ (sound.related_of_parent? found) related]
  | none =>
    have empty : graph.incoming member (some .contains) = [] := by simpa [parent?] using found
    simp [empty] at listed

/-- Where only one scope can hold a node, at most one edge of containment
enters it. -/
theorem parentCount_le_one (sound : graph.Sound) {member : Nat}
    (single : ∀ first second, graph.Related first .contains member →
      graph.Related second .contains member → first = second) :
    graph.parentCount member ≤ 1 := by
  have distinct := sound.sources_nodup member .contains
  have count : graph.parentCount member =
      ((graph.incoming member (some .contains)).map (·.source)).length := by
    simp [parentCount]
  have listed : ∀ scope ∈ (graph.incoming member (some .contains)).map (·.source),
      graph.Related scope .contains member := fun _ => sound.mem_sources.mp
  rw [count]
  generalize (graph.incoming member (some .contains)).map (·.source) = scopes at distinct listed
  match scopes with
  | [] => exact Nat.zero_le _
  | [_] => exact Nat.le_refl _
  | first :: second :: _ =>
    have same := single first second (listed first (by simp)) (listed second (by simp))
    simp [same] at distinct

/-- An edge is found between two nodes exactly when they are related. -/
theorem edgeBetween?_isSome (sound : graph.Sound) {source target : Nat} {relation : Relation} :
    (graph.edgeBetween? source target relation).isSome ↔
      graph.Related source relation target := by
  unfold edgeBetween? Related
  cases known : graph.edgeIndex[(⟨source, target, relation⟩ : EdgeKey)]? with
  | some id =>
    have at_ := sound.edgeIndex_iff.mp known
    obtain ⟨edge, found, _⟩ := edgeKey?_eq_some.mp at_
    simpa [found] using ⟨id, at_⟩
  | none =>
    simp only [Option.bind_none, Option.isSome_none, Bool.false_eq_true, false_iff]
    rintro ⟨id, at_⟩
    rw [sound.edgeIndex_iff.mpr at_] at known
    cases known

end Sound

end Graph

end DeclGraph
