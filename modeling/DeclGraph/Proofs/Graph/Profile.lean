import DeclGraph.Proofs.Graph.Reading

/-!
# Profiles

The profile of an entity is what a graph says about it apart from its relations:
its kind and its attributes. A sound graph has at most one profile under a key,
and each change of the graph changes the profiles in one place only.
-/

namespace DeclGraph

/-- What a graph says about an entity apart from its relations. -/
structure Profile where
  kind : EntityKind
  attributes : Attributes
deriving DecidableEq

/-- What a node says about its entity. -/
def Node.profile (node : Node) : Profile := ⟨node.kind, node.attributes⟩

namespace Graph

/-- The profile under a key. -/
def profile? (graph : Graph) (key : EntityKey) : Option Profile :=
  (graph.nodeByKey? key).bind fun id => graph.nodeTable[id]?.map (·.profile)

variable {graph : Graph}

/-- What is known under a key is the profile of the node that has it. -/
theorem Sound.profile?_eq_some (sound : graph.Sound) {key : EntityKey} {profile : Profile} :
    graph.profile? key = some profile ↔
      ∃ (id : Nat) (node : Node), graph.nodeTable[id]? = some node ∧ node.key = key ∧
        node.profile = profile := by
  unfold profile?
  constructor
  · intro known
    obtain ⟨id, carried, held⟩ := Option.bind_eq_some_iff.mp known
    obtain ⟨node, found, same⟩ := Option.map_eq_some_iff.mp held
    have key_ := sound.nodeByKey?_eq_some.mp carried
    rw [key?_of_node found] at key_
    exact ⟨id, node, found, Option.some.inj key_, same⟩
  · rintro ⟨id, node, found, rfl, rfl⟩
    rw [sound.nodeByKey?_eq_some.mpr (key?_of_node found)]
    simp [found]

/-- The profile of a node is known under its key. -/
theorem Sound.profile?_of_node (sound : graph.Sound) {id : Nat} {node : Node}
    (found : graph.nodeTable[id]? = some node) : graph.profile? node.key = some node.profile :=
  sound.profile?_eq_some.mpr ⟨id, node, found, rfl, rfl⟩

/-- The profile of a listed node is known under its key. -/
theorem Sound.profile?_of_mem (sound : graph.Sound) {node : Node} (there : node ∈ graph.nodes) :
    graph.profile? node.key = some node.profile :=
  sound.profile?_of_node (sound.mem_nodes.mp there)

/-- What is known under a key is what a node says. -/
theorem Sound.exists_node_of_profile? (sound : graph.Sound) {key : EntityKey} {profile : Profile}
    (known : graph.profile? key = some profile) :
    ∃ node ∈ graph.nodes, node.key = key ∧ node.profile = profile := by
  obtain ⟨id, node, found, carries, same⟩ := sound.profile?_eq_some.mp known
  have number := sound.node_id found
  exact ⟨node, sound.mem_nodes.mpr (number.symm ▸ found), carries, same⟩

/-- What is there under a key has the profile of the key. -/
theorem Sound.nodeTable_of_profile? (sound : graph.Sound) {id : Nat}
    {key : EntityKey} {profile : Profile} (carried : graph.key? id = some key)
    (known : graph.profile? key = some profile) :
    graph.nodeTable[id]? = some ⟨id, key, profile.kind, profile.attributes⟩ := by
  obtain ⟨node, found, rfl⟩ := key?_eq_some.mp carried
  rw [sound.profile?_of_node found] at known
  cases known
  obtain rfl := sound.node_id found
  exact found

/-- Something is known under a key exactly when a node has it. -/
theorem Sound.profile?_isSome (sound : graph.Sound) {key : EntityKey} :
    (graph.profile? key).isSome ↔ ∃ id, graph.key? id = some key := by
  constructor
  · intro known
    obtain ⟨profile, held⟩ := Option.isSome_iff_exists.mp known
    obtain ⟨id, node, found, rfl, _⟩ := sound.profile?_eq_some.mp held
    exact ⟨id, key?_of_node found⟩
  · rintro ⟨id, carried⟩
    obtain ⟨node, found, rfl⟩ := key?_eq_some.mp carried
    rw [sound.profile?_of_node found]
    rfl

/-- A key without a profile leads nowhere. -/
theorem Sound.profile?_eq_none (sound : graph.Sound) {key : EntityKey} :
    graph.profile? key = none ↔ graph.nodeByKey? key = none := by
  constructor
  · intro unknown
    cases held : graph.nodeByKey? key with
    | none => rfl
    | some id =>
      have known := sound.profile?_isSome.mpr ⟨id, sound.nodeByKey?_eq_some.mp held⟩
      simp [unknown] at known
  · intro fresh
    simp [profile?, fresh]

/-- A new node adds its profile under its key. -/
theorem Sound.profile?_addNode (sound : graph.Sound) {key : EntityKey} {kind : EntityKind}
    (attributes : Attributes) (fresh : graph.nodeByKey? key = none)
    (family : kind.family = key.family) (other : EntityKey) :
    (graph.addNode key kind attributes).profile? other =
      if key = other then some ⟨kind, attributes⟩ else graph.profile? other := by
  have after := sound.addNode attributes fresh family
  by_cases same : key = other
  · subst same
    rw [if_pos rfl]
    exact after.profile?_eq_some.mpr ⟨graph.nextNode, ⟨graph.nextNode, key, kind, attributes⟩,
      by rw [nodeTable_addNode, if_pos rfl], rfl, rfl⟩
  · rw [if_neg same]
    ext profile
    rw [after.profile?_eq_some, sound.profile?_eq_some]
    have free := sound.key?_nextNode
    constructor
    · rintro ⟨id, node, found, rfl, rfl⟩
      rw [nodeTable_addNode] at found
      by_cases new : graph.nextNode = id
      · rw [if_pos new] at found
        cases found
        exact absurd rfl same
      · rw [if_neg new] at found
        exact ⟨id, node, found, rfl, rfl⟩
    · rintro ⟨id, node, found, rfl, rfl⟩
      refine ⟨id, node, ?_, rfl, rfl⟩
      rw [nodeTable_addNode, if_neg (Nat.ne_of_gt (sound.node_lt found))]
      exact found

/-- A node that is replaced changes what is known under the key that it had. -/
theorem Sound.profile?_withNode (sound : graph.Sound) {id : Nat} {former node : Node}
    (found : graph.nodeTable[id]? = some former) (other : EntityKey) :
    (graph.withNode id node).profile? other =
      if former.key = other then some node.profile else graph.profile? other := by
  have index : (graph.withNode id node).nodeByKey? other = graph.nodeByKey? other := rfl
  have table := fun number => graph.nodeTable_withNode id number node
  unfold profile?
  rw [index]
  by_cases same : former.key = other
  · subst same
    rw [if_pos rfl, sound.nodeByKey?_eq_some.mpr (key?_of_node found)]
    simp [table]
  · rw [if_neg same]
    cases held : graph.nodeByKey? other with
    | none => rfl
    | some number =>
      have apart : id ≠ number := by
        rintro rfl
        have carried := sound.nodeByKey?_eq_some.mp held
        rw [key?_of_node found] at carried
        exact same (Option.some.inj carried)
      simp [table, apart]

/-- An edge adds nothing to what is known under keys. -/
@[simp] theorem profile?_withEdge (key : EdgeKey) (attributes : Attributes) (other : EntityKey) :
    (graph.withEdge key attributes).profile? other = graph.profile? other := by
  simp [profile?, nodeByKey?]

end Graph

end DeclGraph
