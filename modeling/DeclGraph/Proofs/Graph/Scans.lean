import DeclGraph.Proofs.Graph.Reading
import Mathlib.Data.List.Perm.Basic

/-!
# Reads as scans

A graph could be read without any index, by going through all nodes and all
edges in the order of their numbers. Such a scan is slow and cannot be wrong. In
a sound graph every read that goes through an index lists exactly what the scan
lists, in the same order.

Two lists in the order of numbers are equal as soon as they have the same
members, so that most reads need no more than their members.
-/

namespace DeclGraph

/-- Lists of the same members, both in the order of their numbers, are equal. -/
theorem eq_of_increasing {α : Type} (number : α → Nat) {first second : List α}
    (firstIncreasing : (first.map number).Pairwise (· < ·))
    (secondIncreasing : (second.map number).Pairwise (· < ·))
    (same : ∀ member, member ∈ first ↔ member ∈ second) : first = second := by
  rw [List.pairwise_map] at firstIncreasing secondIncreasing
  exact eq_of_ordered Nat.lt_asymm firstIncreasing secondIncreasing same

/-- What is left of a list in the order of numbers is in that order. -/
theorem increasing_filter {α : Type} {number : α → Nat} {members : List α}
    (increasing : (members.map number).Pairwise (· < ·)) (keeps : α → Bool) :
    ((members.filter keeps).map number).Pairwise (· < ·) :=
  increasing.sublist (List.filter_sublist.map number)

namespace Direction

/-- The node at the other end of an edge that is followed from a node, if the
edge can be followed from there. -/
def otherEnd? (direction : Direction) (node : Nat) (edge : Edge) : Option Nat :=
  match direction with
  | .outgoing => if edge.source = node then some edge.target else none
  | .incoming => if edge.target = node then some edge.source else none
  | .both =>
    if edge.source = node then some edge.target
    else if edge.target = node then some edge.source
    else none

/-- An edge followed from a node, with the node at its other end; a loop that is
followed both ways counts twice. -/
def ends (direction : Direction) (node : Nat) (edge : Edge) : List (Nat × Nat) :=
  let forward := if edge.source = node then [(edge.id, edge.target)] else []
  let backward := if edge.target = node then [(edge.id, edge.source)] else []
  match direction with
  | .outgoing => forward
  | .incoming => backward
  | .both => forward ++ backward

variable {direction : Direction} {node : Nat}

/-- The ends of an edge are listed with its number. -/
theorem number_of_mem_ends {edge : Edge} {step : Nat × Nat}
    (member : step ∈ direction.ends node edge) : step.1 = edge.id := by
  cases direction <;> simp only [ends, List.mem_append] at member <;> grind

/-- The ways in which an edge is followed lead to one node. -/
theorem ends_agree {edge : Edge} {first second : Nat × Nat}
    (firstMember : first ∈ direction.ends node edge)
    (secondMember : second ∈ direction.ends node edge) : first = second := by
  cases direction <;> simp only [ends, List.mem_append] at firstMember secondMember <;> grind

/-- A loop adds nothing the second time. -/
theorem foldl_addNew_ends (found : List Nat) (edge : Edge) :
    ((direction.ends node edge).map (·.2)).foldl addNew found =
      (direction.otherEnd? node edge).toList.foldl addNew found := by
  have again : ∀ value, addNew (addNew found value) value = addNew found value := by
    intro value
    have there : (addNew found value).contains value = true := by simp
    rw [addNew, if_pos there]
  cases direction with
  | outgoing => by_cases leaves : edge.source = node <;> simp [ends, otherEnd?, leaves]
  | incoming => by_cases enters : edge.target = node <;> simp [ends, otherEnd?, enters]
  | both =>
    by_cases leaves : edge.source = node
    · by_cases enters : edge.target = node
      · simp [ends, otherEnd?, leaves, enters, again]
      · simp [ends, otherEnd?, leaves, enters]
    · by_cases enters : edge.target = node <;> simp [ends, otherEnd?, leaves, enters]

end Direction

namespace Graph

namespace Sound

variable {graph : Graph}

/-- A scan finds a node by what its key says. -/
theorem mem_filter_nodes (sound : graph.Sound) (accepts : EntityKey → Bool) {id : Nat} :
    id ∈ (graph.nodes.filter fun node => accepts node.key).map (·.id) ↔
      ∃ key, graph.key? id = some key ∧ accepts key := by
  simp only [List.mem_map, List.mem_filter, sound.mem_nodes]
  constructor
  · rintro ⟨node, ⟨found, accepted⟩, rfl⟩
    exact ⟨node.key, key?_of_node found, accepted⟩
  · rintro ⟨key, carried, accepted⟩
    obtain ⟨node, found, rfl⟩ := key?_eq_some.mp carried
    have own := sound.node_id found
    exact ⟨node, ⟨by rwa [own], accepted⟩, own⟩

/-- A list of numbers in increasing order is that of a scan if it has the same
members. -/
theorem eq_scan_of_nodes (sound : graph.Sound) (accepts : EntityKey → Bool) {ids : List Nat}
    (increasing : ids.Pairwise (· < ·))
    (members : ∀ id, id ∈ ids ↔ ∃ key, graph.key? id = some key ∧ accepts key) :
    ids = (graph.nodes.filter fun node => accepts node.key).map (·.id) := by
  refine eq_of_increasing id (by simpa using increasing) ?_
    fun number => (members number).trans (sound.mem_filter_nodes accepts).symm
  rw [List.map_id]
  exact increasing_filter sound.nodes_increasing _

/-- The node of a key is the one that a scan finds. -/
theorem nodeByKey?_eq_scan (sound : graph.Sound) (key : EntityKey) :
    (graph.nodeByKey? key).toList = (graph.nodes.filter fun node => node.key = key).map (·.id) := by
  refine sound.eq_scan_of_nodes (fun other => other = key) ?_ fun id => ?_
  · cases graph.nodeByKey? key <;> simp
  · rw [Option.mem_toList, sound.nodeByKey?_eq_some]
    simp

/-- The nodes of a name are those that a scan finds, in the order of their ids. -/
theorem nodesNamed_eq_scan (sound : graph.Sound) (name : ScopedName) :
    graph.nodesNamed name = (graph.nodes.filter fun node => node.key.name = name).map (·.id) := by
  refine sound.eq_scan_of_nodes (fun key => key.name = name) (sound.named_increasing name)
    fun id => ?_
  rw [nodesNamed, sound.mem_named, Option.map_eq_some_iff]
  simp

/-- A list of edges in the order of their numbers is that of a scan if it has the
same members. -/
theorem eq_scan_of_edges (sound : graph.Sound) {accepts : Edge → Bool} {found : List Edge}
    (increasing : (found.map (·.id)).Pairwise (· < ·))
    (members : ∀ edge, edge ∈ found ↔ graph.edgeTable[edge.id]? = some edge ∧ accepts edge) :
    found = graph.edges.filter accepts := by
  refine eq_of_increasing (·.id) increasing (increasing_filter sound.edges_increasing accepts)
    fun edge => ?_
  rw [members, List.mem_filter, sound.mem_edges]

/-- The edge between two nodes is the one that a scan finds. -/
theorem edgeBetween?_eq_scan (sound : graph.Sound) (source target : Nat) (relation : Relation) :
    (graph.edgeBetween? source target relation).toList =
      graph.edges.filter fun edge =>
        edge.source = source ∧ edge.target = target ∧ edge.relation = relation := by
  refine sound.eq_scan_of_edges ?_ fun edge => ?_
  · cases graph.edgeBetween? source target relation <;> simp
  · rw [Option.mem_toList, edgeBetween?, Option.bind_eq_some_iff]
    have same : edge.key = ⟨source, target, relation⟩ ↔
        edge.source = source ∧ edge.target = target ∧ edge.relation = relation := by
      rw [Edge.key, EdgeKey.mk.injEq]
    rw [decide_eq_true_eq, ← same]
    constructor
    · rintro ⟨id, indexed, held⟩
      obtain ⟨other, found, key⟩ := edgeKey?_eq_some.mp (sound.edgeIndex_iff.mp indexed)
      cases held.symm.trans found
      exact ⟨by rwa [sound.edge_id held], key⟩
    · rintro ⟨held, key⟩
      exact ⟨edge.id, sound.edgeIndex_iff.mpr (key ▸ edgeKey?_of_edge held), held⟩

/-- The edges that leave a node are those that a scan finds, in the order of their ids. -/
theorem outgoing_eq_scan (sound : graph.Sound) (node : Nat) (relation : Option Relation) :
    graph.outgoing node relation =
      graph.edges.filter fun edge => edge.source = node ∧ relation.all (edge.relation = ·) := by
  refine sound.eq_scan_of_edges
    (sound.edgesAmong_increasing (sound.leaving_increasing node) relation) fun edge => ?_
  rw [sound.mem_outgoing, decide_eq_true_eq]

/-- The edges that reach a node are those that a scan finds, in the order of their ids. -/
theorem incoming_eq_scan (sound : graph.Sound) (node : Nat) (relation : Option Relation) :
    graph.incoming node relation =
      graph.edges.filter fun edge => edge.target = node ∧ relation.all (edge.relation = ·) := by
  refine sound.eq_scan_of_edges
    (sound.edgesAmong_increasing (sound.entering_increasing node) relation) fun edge => ?_
  rw [sound.mem_incoming, decide_eq_true_eq]

/-- The children of a scope are the targets of the edges of containment that a scan finds. -/
theorem children_eq_scan (sound : graph.Sound) (scope : Nat) :
    graph.children scope =
      (graph.edges.filter fun edge => edge.source = scope ∧ edge.relation = .contains).map
        (·.target) := by
  rw [children, sound.outgoing_eq_scan]
  simp

/-- The scope of a node is the source of the first edge of containment that a scan finds. -/
theorem parent?_eq_scan (sound : graph.Sound) (node : Nat) :
    graph.parent? node =
      (graph.edges.find? fun edge => edge.target = node ∧ edge.relation = .contains).map
        (·.source) := by
  rw [parent?, sound.incoming_eq_scan, List.head?_filter]
  simp

/-- The steps from a node are those of the edges of a relation, up to their
order. -/
theorem steps_perm (sound : graph.Sound) (node : Nat) (relation : Relation)
    (direction : Direction) :
    (graph.steps node relation direction).Perm
      ((graph.edgesOf relation).flatMap (direction.ends node)) := by
  have forward : (graph.outgoing node (some relation)).map (fun edge => (edge.id, edge.target)) =
      (graph.edgesOf relation).flatMap (Direction.outgoing.ends node) := by
    rw [sound.outgoing_eq_scan, edgesOf]
    induction graph.edges with
    | nil => rfl
    | cons edge rest step =>
      by_cases leaves : edge.source = node <;> by_cases same : edge.relation = relation <;>
        simp_all [Direction.ends]
  have backward : (graph.incoming node (some relation)).map (fun edge => (edge.id, edge.source)) =
      (graph.edgesOf relation).flatMap (Direction.incoming.ends node) := by
    rw [sound.incoming_eq_scan, edgesOf]
    induction graph.edges with
    | nil => rfl
    | cons edge rest step =>
      by_cases enters : edge.target = node <;> by_cases same : edge.relation = relation <;>
        simp_all [Direction.ends]
  cases direction with
  | outgoing => exact .of_eq forward
  | incoming => exact .of_eq backward
  | both =>
    have each : graph.steps node relation .both =
        (graph.edgesOf relation).flatMap (Direction.outgoing.ends node) ++
          (graph.edgesOf relation).flatMap (Direction.incoming.ends node) := by
      rw [← forward, ← backward]
      rfl
    rw [each]
    exact List.flatMap_append_perm _ _ _

/-- Sorted by the numbers of their edges, the steps from a node stand in the order
of a scan. -/
theorem mergeSort_steps (sound : graph.Sound) (node : Nat) (relation : Relation)
    (direction : Direction) :
    ((graph.steps node relation direction).mergeSort fun first second => first.1 ≤ second.1) =
      (graph.edgesOf relation).flatMap (direction.ends node) := by
  have increasing : ((graph.edgesOf relation).map (·.id)).Pairwise (· < ·) :=
    increasing_filter sound.edges_increasing _
  rw [List.pairwise_map] at increasing
  have ordered : ((graph.edgesOf relation).flatMap (direction.ends node)).Pairwise
      fun first second => first.1 ≤ second.1 := by
    rw [List.pairwise_flatMap]
    refine ⟨fun edge _ => ?_, increasing.imp fun below first firstMember second secondMember => ?_⟩
    · refine List.pairwise_of_forall_mem_list fun first firstMember second secondMember => ?_
      exact Nat.le_of_eq (congrArg (·.1) (Direction.ends_agree firstMember secondMember))
    · rw [Direction.number_of_mem_ends firstMember, Direction.number_of_mem_ends secondMember]
      exact Nat.le_of_lt below
  have sorted : ((graph.steps node relation direction).mergeSort
      fun first second => first.1 ≤ second.1).Pairwise fun first second => first.1 ≤ second.1 := by
    refine (List.pairwise_mergeSort ?_ ?_ _).imp of_decide_eq_true
    · exact fun _ _ _ before behind => decide_eq_true
        (Nat.le_trans (of_decide_eq_true before) (of_decide_eq_true behind))
    · intro first second
      simpa using Nat.le_total first.1 second.1
  have perm := (List.mergeSort_perm (graph.steps node relation direction)
    fun first second => first.1 ≤ second.1).trans (sound.steps_perm node relation direction)
  refine perm.eq_of_pairwise (fun first second firstMember secondMember before behind => ?_)
    sorted ordered
  -- Steps of one number belong to one edge, and that leads to one node.
  obtain ⟨edge, listed, steps⟩ := List.mem_flatMap.mp (perm.mem_iff.mp firstMember)
  obtain ⟨other, alsoListed, alsoSteps⟩ := List.mem_flatMap.mp secondMember
  have sameNumber : edge.id = other.id := by
    rw [← Direction.number_of_mem_ends steps, ← Direction.number_of_mem_ends alsoSteps]
    exact Nat.le_antisymm before behind
  have held := sound.mem_edges.mp (List.mem_of_mem_filter listed)
  have otherHeld := sound.mem_edges.mp (List.mem_of_mem_filter alsoListed)
  have sameEdge : edge = other := by
    rw [sameNumber, otherHeld] at held
    exact (Option.some.inj held).symm
  exact Direction.ends_agree steps (sameEdge ▸ alsoSteps)

/-- The neighbours of a node are the other ends of the edges at it, in the order
of the edges and without what comes again. -/
theorem neighbours_eq_scan (sound : graph.Sound) {node : Nat} (there : (graph.key? node).isSome)
    (relation : Relation) (direction : Direction) :
    graph.neighbours node relation direction =
      .ok (distinct ((graph.edgesOf relation).filterMap (direction.otherEnd? node))) := by
  obtain ⟨known, found⟩ := isSome_key?_iff.mp there
  have folded : ∀ (edges : List Edge) (reached : List Nat),
      ((edges.flatMap (direction.ends node)).map (·.2)).foldl addNew reached =
        (edges.filterMap (direction.otherEnd? node)).foldl addNew reached := by
    intro edges
    induction edges with
    | nil => exact fun _ => rfl
    | cons edge rest step =>
      intro reached
      rw [List.flatMap_cons, List.map_append, List.foldl_append, Direction.foldl_addNew_ends, step]
      cases reaches : direction.otherEnd? node edge <;> simp [reaches]
  have listed := sound.mergeSort_steps node relation direction
  simp only [neighbours, node_of_nodeTable found, bind, Except.bind, pure, Except.pure]
  rw [listed, distinct, folded, ← distinct]

end Sound

/-- What is not there has no neighbours to ask for. -/
theorem neighbours_of_missing {graph : Graph} {node : Nat} (missing : graph.key? node = none)
    (relation : Relation) (direction : Direction) :
    graph.neighbours node relation direction = .error (.nodeMissing node) := by
  have absent : graph.nodeTable[node]? = none := by simpa [key?] using missing
  simp [neighbours, Graph.node, absent, bind, Except.bind]

end Graph

end DeclGraph
